import DeviceAccess.Ordered
import DeviceAccess.Text.Blank
import DeviceAccess.Text.Letter
import DeviceAccess.Text.Numeral

/-!
# Environment files

A file of lines `NAME=value`, each of which may start with `export`.  A value may be quoted:
within single quotes every character counts as it is; within double quotes, and without quotes,
a backslash protects the next character and `$NAME` or `${NAME}` stands for a variable, of the
environment first and of the file else.  A quoted value may span lines.

`EnvFile.load` adds the variables of a file to an environment, line by line.  A variable that
is set already keeps its value, and the first line that cannot be read ends the file.
-/

namespace DeviceAccess

/-- Variables by name. -/
abbrev Environment := OrderedMap String String

namespace EnvFile

/-! ### Logical lines -/

/-- Where in a line the reader is. -/
inductive Place where
  | complete
  | afterBlank
  | escape
  | strong
  | strongEscape
  | weak
  | weakEscape
  | comment
  deriving DecidableEq, Repr

/-- The place after one more character. -/
def Place.next (p : Place) (c : Char) : Place :=
  match p with
  | complete =>
    if Text.isBlank c && c ≠ '\n' && c ≠ '\r' then afterBlank
    else if c = '\\' then escape
    else if c = '"' then weak
    else if c = '\'' then strong
    else complete
  | afterBlank =>
    if c = '#' then comment
    else if c = '\\' then escape
    else if c = '"' then weak
    else if c = '\'' then strong
    else complete
  | escape => complete
  | weak => if c = '\\' then weakEscape else if c = '"' then complete else weak
  | weakEscape => weak
  | strong => if c = '\\' then strongEscape else if c = '\'' then complete else strong
  | strongEscape => strong
  | comment => comment

/-- Follows one physical line; the second part is the text before a comment. -/
def followLine (p : Place) : List Char → Place × List Char
  | [] => (p, [])
  | c :: rest =>
    match p.next c with
    | .comment => (.comment, [])
    | q => let (ending, text) := followLine q rest; (ending, c :: text)

/-- Cuts a text into physical lines, each with its line end. -/
def physicalLines : List Char → List (List Char)
  | [] => []
  | '\n' :: rest => ['\n'] :: physicalLines rest
  | c :: rest =>
    match physicalLines rest with
    | line :: lines => (c :: line) :: lines
    | [] => [[c]]

/-- A line without its line end. -/
def withoutEnd (line : List Char) : List Char :=
  match line.reverse with
  | '\n' :: '\r' :: back => back.reverse
  | '\n' :: back => back.reverse
  | _ => line

/-- Joins physical lines to logical ones; an error stands for a line that does not end. -/
def logicalLines (p : Place) (before : List Char) :
    List (List Char) → List (Except Unit (List Char))
  | [] => if p = .complete then [] else [.error ()]
  | line :: lines =>
    let all := before ++ line
    if (all.dropWhile Text.isBlank).head? = some '#' then
      .ok [] :: logicalLines .complete [] lines
    else
      let (place, text) := followLine p line
      match place with
      | .complete => .ok (withoutEnd all) :: logicalLines .complete [] lines
      | .comment => .ok (before ++ text) :: logicalLines .complete [] lines
      | place => logicalLines place all lines

/-! ### Values -/

/-- Whether a name of a variable is being read, and how it was started. -/
inductive Naming where
  | none
  /-- After `$`. -/
  | bare
  /-- After `${`. -/
  | braced
  deriving DecidableEq, Repr

/-- The state of reading a value. -/
structure ValueState where
  strong : Bool
  weak : Bool
  escaped : Bool
  ending : Bool
  naming : Naming
  name : List Char
  output : List Char

/-- The value of a variable. -/
abbrev Lookup := String → String

/-- The output with the variable that was named. -/
def ValueState.substitute (s : ValueState) (lookup : Lookup) : ValueState :=
  { s with output := s.output ++ (lookup (String.ofList s.name)).toList, name := [] }

/-- Reads the characters of a value. -/
def readValue (lookup : Lookup) (s : ValueState) : List Char → Option String
  | [] =>
    if s.naming = .braced || s.strong || s.weak then none
    else some (String.ofList (s.substitute lookup).output)
  | c :: rest =>
    if s.ending then
      if c = ' ' || c = '\t' then readValue lookup s rest
      else if c = '#' then
        if s.naming = .braced || s.strong || s.weak then none
        else some (String.ofList (s.substitute lookup).output)
      else none
    else if s.escaped then
      if c = '\\' || c = '\'' || c = '"' || c = '$' || c = ' ' then
        readValue lookup { s with escaped := false, output := s.output ++ [c] } rest
      else if c = 'n' then
        readValue lookup { s with escaped := false, output := s.output ++ ['\n'] } rest
      else none
    else if s.strong then
      if c = '\'' then readValue lookup { s with strong := false } rest
      else readValue lookup { s with output := s.output ++ [c] } rest
    else if s.naming ≠ .none then
      if Text.isLetter c || Text.isNumeral c then
        readValue lookup { s with name := s.name ++ [c] } rest
      else if s.naming = .bare then
        if c = '\x7b' && s.name.isEmpty then readValue lookup { s with naming := .braced } rest
        else
          let s := s.substitute lookup
          if c = '$' then readValue lookup { s with naming := .bare } rest
          else readValue lookup { s with naming := .none, output := s.output ++ [c] } rest
      else if c = '\x7d' then
        readValue lookup { s.substitute lookup with naming := .none } rest
      else readValue lookup { s with name := s.name ++ [c] } rest
    else if c = '$' then readValue lookup { s with naming := .bare } rest
    else if s.weak then
      if c = '"' then readValue lookup { s with weak := false } rest
      else if c = '\\' then readValue lookup { s with escaped := true } rest
      else readValue lookup { s with output := s.output ++ [c] } rest
    else if c = '\'' then readValue lookup { s with strong := true } rest
    else if c = '"' then readValue lookup { s with weak := true } rest
    else if c = '\\' then readValue lookup { s with escaped := true } rest
    else if c = ' ' || c = '\t' then readValue lookup { s with ending := true } rest
    else readValue lookup { s with output := s.output ++ [c] } rest

/-! ### Lines -/

/-- Reads a name at the start of a text. -/
def name? (text : List Char) : Option (List Char × List Char) :=
  let isStart := fun (c : Char) => c.isAlpha || c = '_'
  let isPart := fun (c : Char) => c.isAlphanum || c = '_' || c = '.'
  match text with
  | [] => none
  | c :: _ => if isStart c then some (text.takeWhile isPart, text.dropWhile isPart) else none

/-- What a line says. -/
inductive Line where
  | nothing
  | assignment (name : String) (value : String)
  | unreadable

/-- Reads the name and the text after the equals sign of a line. -/
def assignment? (text : List Char) : Option (List Char × List Char) := do
  let (name, rest) ← name? text
  let rest := rest.dropWhile Text.isBlank
  match rest with
  | '=' :: value => some (name, value)
  | _ =>
    if name = "export".toList then
      let (name, rest) ← name? rest
      match rest.dropWhile Text.isBlank with
      | '=' :: value => some (name, value)
      | _ => none
    else none

/-- Reads a line. -/
def readLine (lookup : Lookup) (line : List Char) : Line :=
  let text := Text.trimBlanks line
  match text with
  | [] => .nothing
  | '#' :: _ => .nothing
  | _ =>
    match assignment? text with
    | none => .unreadable
    | some (name, value) =>
      match value.dropWhile Text.isBlank with
      | [] => .assignment (String.ofList name) ""
      | '#' :: _ => .assignment (String.ofList name) ""
      | value =>
        match readValue lookup ⟨false, false, false, false, .none, [], []⟩ value with
        | some v => .assignment (String.ofList name) v
        | none => .unreadable

/-- Adds the variables of logical lines; `seen` are those of the lines before. -/
def loadLines (env seen : Environment) : List (Except Unit (List Char)) → Environment
  | [] => env
  | .error () :: _ => env
  | .ok line :: lines =>
    let lookup := fun n => match env.get? n with
      | some v => v
      | none => (seen.get? n).getD ""
    match readLine lookup line with
    | .nothing => loadLines env seen lines
    | .unreadable => env
    | .assignment name value =>
      let env' := if env.contains name then env else env.insert name value
      loadLines env' (seen.insert name value) lines

/-- The environment with the variables of a file. -/
def load (env : Environment) (text : String) : Environment :=
  let chars := match text.toList with
    | '\ufeff' :: rest => rest
    | chars => chars
  loadLines env ∅ (logicalLines .complete [] (physicalLines chars))

end EnvFile

end DeviceAccess
