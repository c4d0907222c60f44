/-!
# Paths

A path is kept as it was written.  Two paths name the same place when they have the same
components: empty components and `.` count only at the start of the path.
-/

namespace DeviceAccess

/-- A file path, as written. -/
structure Path where
  text : String
  deriving DecidableEq, Repr

namespace Path

/-- Whether the path starts at the root. -/
def isAbsolute (p : Path) : Bool := p.text.toList.head? = some '/'

/-- The components of a path; the root is the component `/`. -/
def components (p : Path) : List String :=
  let parts := (p.text.toList.splitOn '/').map String.ofList
  let named := parts.filter fun s => s ≠ "" ∧ s ≠ "."
  if p.isAbsolute then "/" :: named
  else if parts.head? = some "." then "." :: named
  else named

/-- Whether two paths name the same place. -/
def same (p q : Path) : Bool := p.components = q.components

/-- The path of `name` inside `p`; an absolute name stands for itself. -/
def join (p : Path) (name : String) : Path :=
  if name.toList.head? = some '/' then ⟨name⟩
  else if p.text.isEmpty || p.text.toList.getLast? = some '/' then ⟨p.text ++ name⟩
  else ⟨p.text ++ "/" ++ name⟩

end Path

end DeviceAccess
