import DeviceAccess.Fault

/-!
# Things

A thing is the cloud's record of a device.  Its name is not empty and holds only ASCII
letters, digits, `-`, `_` and `:`; the type carries the proof, so a thing name never holds a
wildcard, a topic separator or the start of a policy variable.
-/

namespace DeviceAccess

namespace Thing

/-- Whether a character may stand in a thing name. -/
def isNameChar (c : Char) : Bool := c.isAlphanum || c == '-' || c == '_' || c == ':'

/-- Whether a text may be a thing name. -/
def isName (name : String) : Bool := !name.toList.isEmpty && name.toList.all isNameChar

end Thing

/-- A named device. -/
structure Thing where
  name : String
  isName_name : Thing.isName name = true

namespace Thing

instance : DecidableEq Thing := fun a b =>
  decidable_of_iff (a.name = b.name) (by cases a; cases b; simp)

/-- The thing of a name, or why there is none. -/
def ofName (name : String) : Except Fault Thing :=
  if h : isName name = true then .ok ⟨name, h⟩
  else .error (.authentication
    s!"Invalid thing name ({name}). The thing name must match [a-zA-Z0-9-_:]+")

end Thing

end DeviceAccess
