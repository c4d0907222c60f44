import DeviceAccess.Identity.Session
import DeviceAccess.Ordered

/-!
# Policy variables

A resource of a policy may name the client it is granted to by a variable,
`${iot:Connection.Thing.ThingName}`, in any letter case.  Three readers look at a resource:

* `PolicyVariable.candidates` finds the texts that have the shape of a variable,
  `${letters:letters-and-dots}`; a letter is an ASCII letter or one of the two characters that
  are equal to one when case is ignored, `ſ` and the Kelvin sign;
* `PolicyVariable.isValid` accepts a resource if every `${` starts a known variable;
* `PolicyVariable.substitute` puts what the session knows in the place of each known variable
  and leaves all other text as it is.
-/

namespace DeviceAccess

/-- A known variable and the identity attribute that it stands for. -/
structure PolicyVariable where
  token : String
  facet : String
  attributeName : String
  deriving DecidableEq, Repr

namespace PolicyVariable

/-- The variable that stands for the name of the session's thing. -/
def thingName : PolicyVariable :=
  ⟨"$\x7biot:Connection.Thing.ThingName\x7d", "Thing", "ThingName"⟩

/-- All known variables. -/
def catalog : List PolicyVariable := [thingName]

/-- Equality of texts up to the case of ASCII letters. -/
def sameLetters (a b : List Char) : Bool := a.map Char.toLower = b.map Char.toLower

/-- The known variable that a token spells. -/
def lookup (token : List Char) : Option PolicyVariable :=
  catalog.find? fun v => sameLetters v.token.toList token

/-! ### Candidates -/

/-- A letter of a variable's shape. -/
def isShapeLetter (c : Char) : Bool := c.isAlpha || c = '\u017f' || c = '\u212a'

/-- Splits a text after a leading `${letters:letters-and-dots}`. -/
def candidate? (text : List Char) : Option (List Char × List Char) :=
  match text with
  | '$' :: '{' :: body =>
    let space := body.takeWhile isShapeLetter
    match space.isEmpty, body.dropWhile isShapeLetter with
    | false, ':' :: path =>
      let inner := path.takeWhile fun c => isShapeLetter c || c = '.'
      match inner.isEmpty, path.dropWhile fun c => isShapeLetter c || c = '.' with
      | false, '}' :: rest => some ('$' :: '{' :: space ++ ':' :: inner ++ ['}'], rest)
      | _, _ => none
    | _, _ => none
  | _ => none

theorem candidate?_length {text token rest : List Char}
    (h : candidate? text = some (token, rest)) : rest.length < text.length := by
  unfold candidate? at h
  split at h
  · next body =>
    simp only at h
    split at h
    · next path _ hb =>
      split at h
      · next rest' _ hp =>
        simp only [Option.some.injEq, Prod.mk.injEq] at h
        obtain ⟨_, rfl⟩ := h
        have h1 := (List.dropWhile_suffix isShapeLetter (l := body)).length_le
        have h2 := (List.dropWhile_suffix (fun c => isShapeLetter c || c = '.') (l := path)).length_le
        rw [hb] at h1
        rw [hp] at h2
        simp only [List.length_cons] at h1 h2 ⊢
        omega
      · exact nomatch h
    · exact nomatch h
  · exact nomatch h

/-- A piece of a resource: a text of a variable's shape, or one other character. -/
inductive Piece where
  | candidate (token : List Char)
  | plain (c : Char)
  deriving DecidableEq, Repr

/-- Cuts a resource into pieces, from the left. -/
def pieces (text : List Char) : List Piece :=
  match _h : candidate? text with
  | some (token, rest) => .candidate token :: pieces rest
  | none =>
    match text with
    | [] => []
    | c :: rest => .plain c :: pieces rest
termination_by text.length
decreasing_by
  · exact candidate?_length _h
  · simp

/-- The tokens of a variable's shape in a resource, as they are written. -/
def candidates (resource : String) : OrderedSet String :=
  OrderedSet.ofList <| (pieces resource.toList).filterMap fun
    | .candidate token => some (String.ofList token)
    | .plain _ => none

/-! ### Validation -/

/-- The text after a known variable that `text` starts with. -/
def afterKnown? (text : List Char) : Option (List Char) :=
  (catalog.find? fun v =>
      sameLetters v.token.toList (text.take v.token.length)).map
    fun v => text.drop v.token.length

/-- Whether every `${` starts a known variable. -/
def wellFormed (text : List Char) : Bool :=
  match text with
  | [] => true
  | c :: rest =>
    if ['$', '{'].isPrefixOf (c :: rest) then
      match afterKnown? (c :: rest) with
      | none => false
      | some after => if _h : after.length < (c :: rest).length then wellFormed after else false
    else wellFormed rest
termination_by text.length
decreasing_by
  · exact _h
  · simp

/-- Whether every `${` of the resource starts a known variable. -/
def isValid (resource : String) : Bool := wellFormed resource.toList

/-! ### Substitution -/

/-- What stands for a piece in a session. -/
def Piece.fill (session : Session) : Piece → List Char
  | .plain c => [c]
  | .candidate token =>
    match (lookup token).bind fun v => session.identityAttribute v.facet v.attributeName with
    | some value => value.toList
    | none => token

/-- The resource with the session's attributes in the place of its known variables; a
variable the session cannot answer stays as it is written. -/
def substitute (resource : String) (session : Session) : String :=
  String.ofList ((pieces resource.toList).flatMap (Piece.fill session))

end PolicyVariable

end DeviceAccess
