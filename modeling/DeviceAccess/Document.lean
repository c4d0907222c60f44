/-!
# Documents

Configuration comes as a tree of tables, lists and scalars, whatever text it was written in.
A scalar of a text format that is written without quotes is `plain`: it has no type of its
own until a reader asks for one (`Document.typed`).

Readers of records follow one rule.  A record is a table whose unknown keys are ignored and
whose fields may go by other names, or a list of the fields in their order.  A field that is
given twice, also under two names, is an error (`Document.record`).
-/

namespace DeviceAccess

/-- A tree of values. -/
inductive Document where
  | null
  | bool (value : Bool)
  | int (value : Int)
  /-- A number with a fraction or an exponent. -/
  | float (written : String)
  | text (value : String)
  /-- A scalar without quotes, not yet given a type. -/
  | plain (written : String)
  | list (items : List Document)
  | table (entries : List (String × Document))
  deriving Inhabited, Repr

/-- Why a document does not have the expected shape. -/
inductive ShapeFault where
  | expected (what : String)
  | outOfRange (what : String)
  | unknownVariant (name : String)
  | missingField (name : String)
  | duplicateField (name : String)
  deriving DecidableEq, Repr

/-- The report of a shape fault. -/
def ShapeFault.message : ShapeFault → String
  | expected what => "invalid type: expected " ++ what
  | outOfRange what => "invalid value: expected " ++ what
  | unknownVariant name => "unknown variant " ++ name
  | missingField name => "missing field " ++ name
  | duplicateField name => "duplicate field " ++ name

namespace Document

/-! ### Scalars without quotes -/

/-- The value of a digit. -/
def digitValue? (c : Char) : Option Nat :=
  if c.isDigit then some (c.toNat - '0'.toNat)
  else if 'a' ≤ c ∧ c ≤ 'z' then some (c.toNat - 'a'.toNat + 10)
  else if 'A' ≤ c ∧ c ≤ 'Z' then some (c.toNat - 'A'.toNat + 10)
  else none

/-- Reads digits of a base; at least one is needed. -/
def natOfDigits? (base : Nat) (digits : List Char) : Option Nat :=
  if digits.isEmpty then none
  else digits.foldlM (fun n c => do
    let d ← digitValue? c
    if d < base then some (n * base + d) else none) 0

/-- Whether a decimal number is written with a needless leading zero. -/
def hasLeadingZero (digits : List Char) : Bool :=
  match digits with
  | '0' :: _ :: _ => true
  | _ => false

/-- Reads a number without sign: `0x`, `0o` and `0b` name a base other than ten. -/
def unsigned? : List Char → Option Nat
  | '0' :: 'x' :: digits => natOfDigits? 16 digits
  | '0' :: 'o' :: digits => natOfDigits? 8 digits
  | '0' :: 'b' :: digits => natOfDigits? 2 digits
  | digits => if hasLeadingZero digits then none else natOfDigits? 10 digits

/-- Reads an integer. -/
def integer? : List Char → Option Int
  | '-' :: rest => (unsigned? rest).map fun n => -(n : Int)
  | '+' :: rest => (unsigned? rest).map fun n => (n : Int)
  | rest => (unsigned? rest).map fun n => (n : Int)

/-- Whether a text is a decimal number with digits, perhaps a point, and perhaps an exponent. -/
def isDecimal (text : List Char) : Bool :=
  let mantissa := text.takeWhile fun c => c ≠ 'e' && c ≠ 'E'
  let exponent := text.dropWhile fun c => c ≠ 'e' && c ≠ 'E'
  let digits := mantissa.filter (· ≠ '.')
  let exponentOk := match exponent with
    | [] => true
    | _ :: '+' :: ds => !ds.isEmpty && ds.all Char.isDigit
    | _ :: '-' :: ds => !ds.isEmpty && ds.all Char.isDigit
    | _ :: ds => !ds.isEmpty && ds.all Char.isDigit
  !digits.isEmpty && digits.all Char.isDigit
    && (mantissa.filter (· = '.')).length ≤ 1 && exponentOk

/-- Whether a scalar without quotes is a number that is not an integer. -/
def isFloat (text : List Char) : Bool :=
  let unsigned := match text with
    | '+' :: rest => rest
    | '-' :: rest => rest
    | rest => rest
  let digits := unsigned.takeWhile (· ≠ '.')
  isDecimal unsigned && !(unsigned.all Char.isDigit && hasLeadingZero digits)
    || [".inf", ".Inf", ".INF"].contains (String.ofList unsigned)
    || [".nan", ".NaN", ".NAN"].contains (String.ofList text)

/-- Whether a scalar without quotes stands for no value. -/
def isNullText (s : String) : Bool := ["", "~", "null", "Null", "NULL"].contains s

/-- The value that a scalar without quotes has on its own. -/
def ofPlain (s : String) : Document :=
  if isNullText s then null
  else if ["true", "True", "TRUE"].contains s then bool true
  else if ["false", "False", "FALSE"].contains s then bool false
  else match integer? s.toList with
    | some i => int i
    | none => if isFloat s.toList then float s else text s

/-- The document with a type for its outermost scalar. -/
def typed : Document → Document
  | plain s => ofPlain s
  | d => d

/-! ### Layers -/

/-- Binds a key, in the place of an earlier binding if there is one. -/
def bind (key : String) (value : Document) : List (String × Document) → List (String × Document)
  | [] => [(key, value)]
  | e :: es => if e.1 = key then (key, value) :: es else e :: bind key value es

mutual

/-- The document with a type for every scalar, and in every table the last of the entries with
one key. -/
def settled : Document → Document
  | plain s => ofPlain s
  | list items => list (settledItems items)
  | table entries => table (settledEntries [] entries)
  | d => d

/-- The settled items of a list. -/
def settledItems : List Document → List Document
  | [] => []
  | d :: ds => d.settled :: settledItems ds

/-- The settled entries of a table, after those already settled. -/
def settledEntries (before : List (String × Document)) :
    List (String × Document) → List (String × Document)
  | [] => before
  | (key, d) :: es => settledEntries (bind key d.settled before) es

end

mutual

/-- A document laid over another: tables are combined key by key, all else is replaced. -/
def overlay (below : Document) : Document → Document
  | table above =>
    match below with
    | table entries => table (overlayEntries entries above)
    | _ => table above
  | d => d

/-- The entries of a table with those of another laid over them. -/
def overlayEntries (below : List (String × Document)) :
    List (String × Document) → List (String × Document)
  | [] => below
  | (key, d) :: es =>
    let value := match below.lookup key with
      | some old => overlay old d
      | none => d
    overlayEntries (bind key value below) es

end

/-- A document at the end of a path of keys. -/
def nested : List String → Document → Document
  | [], d => d
  | key :: keys, d => table [(key, nested keys d)]

/-! ### Readers -/

/-- Reads a text; every scalar without quotes will do. -/
def asText : Document → Except ShapeFault String
  | text s => .ok s
  | plain s => .ok s
  | _ => .error (.expected "a string")

/-- Reads a truth value. -/
def asBool (d : Document) : Except ShapeFault Bool :=
  match d.typed with
  | bool b => .ok b
  | _ => .error (.expected "a boolean")

/-- Reads a 64-bit number. -/
def asUInt64 (d : Document) : Except ShapeFault UInt64 :=
  match d.typed with
  | int (.ofNat n) =>
    if n < UInt64.size then .ok (UInt64.ofNat n) else .error (.outOfRange "u64")
  | int (.negSucc _) => .error (.outOfRange "u64")
  | _ => .error (.expected "u64")

/-- Reads a value that may be absent. -/
def asOption {α : Type} (read : Document → Except ShapeFault α) (d : Document) :
    Except ShapeFault (Option α) :=
  match d with
  | null => .ok none
  | plain s => if isNullText s then .ok none else (read d).map some
  | _ => (read d).map some

/-- Reads a list. -/
def asList {α : Type} (read : Document → Except ShapeFault α) :
    Document → Except ShapeFault (List α)
  | list items => items.mapM read
  | plain "" => .ok []
  | _ => .error (.expected "a sequence")

/-- Reads a table with free keys. -/
def asTable {α : Type} (read : Document → Except ShapeFault α) :
    Document → Except ShapeFault (List (String × α))
  | table entries => entries.mapM fun e => (read e.2).map fun v => (e.1, v)
  | plain "" => .ok []
  | _ => .error (.expected "a map")

/-- Reads one of several names. -/
def asVariant {α : Type} (variants : List (String × α)) (d : Document) : Except ShapeFault α := do
  let name ← match d with
    | table [(name, null)] => .ok name
    | d => d.asText
  match variants.lookup name with
  | some v => .ok v
  | none => .error (.unknownVariant name)

/-! ### Records -/

/-- A field of a record, by its name and its other names. -/
structure Field where
  name : String
  others : List String

/-- A field that has one name only. -/
def Field.named (name : String) : Field := ⟨name, []⟩

/-- The field that goes by a key. -/
def fieldOf? (fields : List Field) (key : String) : Option String :=
  (fields.find? fun f => f.name = key || f.others.contains key).map (·.name)

/-- The first name that a list holds twice. -/
def firstRepeated? : List String → Option String
  | [] => none
  | n :: ns => if ns.contains n then some n else firstRepeated? ns

/-- The fields of a record that are given, under their own names. -/
def record (fields : List Field) : Document → Except ShapeFault (List (String × Document))
  | table entries =>
    let given := entries.filterMap fun e => (fieldOf? fields e.1).map fun n => (n, e.2)
    match firstRepeated? (given.map (·.1)) with
    | some n => .error (.duplicateField n)
    | none => .ok given
  | list items =>
    if fields.length < items.length then .error (.expected "fewer elements")
    else .ok ((fields.map (·.name)).zip items)
  | plain "" => .ok []
  | _ => .error (.expected "a map")

/-- Reads a field that may be left out. -/
def fieldOr {α : Type} (given : List (String × Document)) (name : String) (fallback : α)
    (read : Document → Except ShapeFault α) : Except ShapeFault α :=
  match given.lookup name with
  | some d => read d
  | none => .ok fallback

/-- Reads a field that has to be given. -/
def fieldOf {α : Type} (given : List (String × Document)) (name : String)
    (read : Document → Except ShapeFault α) : Except ShapeFault α :=
  match given.lookup name with
  | some d => read d
  | none => .error (.missingField name)

end Document

end DeviceAccess
