import DeviceAccess.Document
import DeviceAccess.Text.Blank

/-!
# Values of environment variables

A variable that overrides a setting is read as a value: `true`, `false`, a number, a text in
double quotes, a character in single quotes, a list `[a, b]` or a table `{key=value}`.  A text
that is none of these stands for itself.
-/

namespace DeviceAccess.EnvValue

/-- Whether a character is ASCII white space. -/
def isSpace (c : Char) : Bool :=
  c = ' ' || c = '\t' || c = '\n' || c = '\r' || c = '\x0c'

/-- Whether a character separates or encloses values. -/
def isSeparator (c : Char) : Bool :=
  c = ',' || c = '[' || c = ']' || c = '\x7b' || c = '\x7d'

/-- Reads the rest of a text in double quotes. -/
def quoted : List Char → Option (List Char × List Char)
  | [] => none
  | '"' :: rest => some ([], rest)
  | '\\' :: c :: rest => do
    let (more, rest') ← quoted rest
    match c with
    | 'n' => some ('\n' :: more, rest')
    | 't' => some ('\t' :: more, rest')
    | 'r' => some ('\r' :: more, rest')
    | 'b' => some ('\x08' :: more, rest')
    | 'f' => some ('\x0c' :: more, rest')
    | '"' => some ('"' :: more, rest')
    | '\\' => some ('\\' :: more, rest')
    | _ => none
  | c :: rest => do
    let (more, rest') ← quoted rest
    some (c :: more, rest')

/-- Reads a number: digits, with a sign or a point. -/
def number? (text : List Char) : Option Document :=
  let digits := match text with
    | '+' :: ds => ds
    | '-' :: ds => ds
    | ds => ds
  if text.contains '.' && Document.isDecimal digits then some (.float (String.ofList text))
  else if digits.isEmpty || !digits.all Char.isDigit then none
  else
    let n := digits.foldl (fun n c => n * 10 + (c.toNat - '0'.toNat)) 0
    match text with
    | '-' :: _ => if n ≤ 9223372036854775808 then some (.int (-(n : Int))) else none
    | _ => if n ≤ 18446744073709551615 then some (.int n) else none

/-- A word that is neither quoted nor a collection. -/
def word (text : List Char) : Document :=
  let trimmed := Text.trimBlanks text
  match number? trimmed with
  | some d => d
  | none => .text (String.ofList trimmed)

/-- Whether a character may stand in a key without quotes. -/
def isKeyChar (c : Char) : Bool := c.isAlphanum || c = '_' || c = '-'

/-- Reads a key and the equals sign after it. -/
def key (text : List Char) : Option (String × List Char) := do
  let (name, rest) ← match text.dropWhile isSpace with
    | '"' :: rest => quoted rest
    | chars =>
      let name := chars.takeWhile isKeyChar
      if name.isEmpty then none else some (name, chars.dropWhile isKeyChar)
  match rest.dropWhile isSpace with
  | '=' :: rest => some (String.ofList name, rest)
  | _ => none

mutual

/-- Reads a value and the blanks around it. -/
def value : Nat → List Char → Option (Document × List Char)
  | 0, _ => none
  | fuel + 1, text => do
    let (d, rest) ← match text.dropWhile isSpace with
      | 't' :: 'r' :: 'u' :: 'e' :: rest => some (Document.bool true, rest)
      | 'f' :: 'a' :: 'l' :: 's' :: 'e' :: rest => some (Document.bool false, rest)
      | '\x7b' :: rest => (entries fuel rest).map fun p => (Document.table p.1, p.2)
      | '[' :: rest => (items fuel rest).map fun p => (Document.list p.1, p.2)
      | '"' :: rest => (quoted rest).map fun p => (Document.text (String.ofList p.1), p.2)
      | '\'' :: c :: '\'' :: rest => some (Document.text (String.singleton c), rest)
      | '\'' :: _ => none
      | chars => some (word (chars.takeWhile (!isSeparator ·)), chars.dropWhile (!isSeparator ·))
    some (d, rest.dropWhile isSpace)

/-- Reads the items of a list up to its end. -/
def items : Nat → List Char → Option (List Document × List Char)
  | 0, _ => none
  | fuel + 1, text =>
    match text with
    | ']' :: rest => some ([], rest)
    | _ => do
      let (d, rest) ← value fuel text
      match rest with
      | ',' :: rest => do
        let (ds, rest) ← items fuel rest
        some (d :: ds, rest)
      | ']' :: rest => some ([d], rest)
      | _ => none

/-- Reads the entries of a table up to its end. -/
def entries : Nat → List Char → Option (List (String × Document) × List Char)
  | 0, _ => none
  | fuel + 1, text =>
    match text with
    | '\x7d' :: rest => some ([], rest)
    | _ => do
      let (name, rest) ← key text
      let (d, rest) ← value fuel rest
      match rest with
      | ',' :: rest => do
        let (es, rest) ← entries fuel rest
        some ((name, d) :: es, rest)
      | '\x7d' :: rest => some ([(name, d)], rest)
      | _ => none

end

/-- Reads a variable. -/
def parse (text : String) : Document :=
  match value (2 * text.length + 2) text.toList with
  | some (d, []) => d.settled
  | _ => .text text

end DeviceAccess.EnvValue
