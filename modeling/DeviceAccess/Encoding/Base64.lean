import DeviceAccess.Encoding.Bytes

/-!
# Base64

Three bytes are written as four characters of an alphabet of sixty-four, and a last group of one
or two bytes is filled up with `=`.

Two readers undo this.  `Base64.decode?` takes what the writer produces and nothing else.
`Base64.decodeLoose?` skips blanks between characters and takes a last group without its padding
and with stray low bits; padding may also end every second group of four.
-/

namespace DeviceAccess

namespace Base64

/-! ### The alphabet -/

/-- The character of a value below sixty-four. -/
def char (n : Nat) : Char :=
  if n < 26 then Char.ofNat ('A'.toNat + n)
  else if n < 52 then Char.ofNat ('a'.toNat + (n - 26))
  else if n < 62 then Char.ofNat ('0'.toNat + (n - 52))
  else if n = 62 then '+'
  else '/'

/-- The value of a character of the alphabet. -/
def value? (c : Char) : Option Nat :=
  if 'A' ≤ c ∧ c ≤ 'Z' then some (c.toNat - 'A'.toNat)
  else if 'a' ≤ c ∧ c ≤ 'z' then some (c.toNat - 'a'.toNat + 26)
  else if '0' ≤ c ∧ c ≤ '9' then some (c.toNat - '0'.toNat + 52)
  else if c = '+' then some 62
  else if c = '/' then some 63
  else none

/-! ### Writing -/

/-- Writes a byte string. -/
def encode : Bytes → List Char
  | [] => []
  | [a] => [char (a.toNat / 4), char (a.toNat % 4 * 16), '=', '=']
  | [a, b] =>
    [char (a.toNat / 4), char (a.toNat % 4 * 16 + b.toNat / 16), char (b.toNat % 16 * 4), '=']
  | a :: b :: c :: rest =>
    char (a.toNat / 4) :: char (a.toNat % 4 * 16 + b.toNat / 16)
      :: char (b.toNat % 16 * 4 + c.toNat / 64) :: char (c.toNat % 64) :: encode rest

/-! ### Reading -/

/-- The first byte of a group with these values. -/
def first (a b : Nat) : UInt8 := UInt8.ofNat (a * 4 + b / 16)

/-- The second byte of a group with these values. -/
def second (b c : Nat) : UInt8 := UInt8.ofNat (b % 16 * 16 + c / 4)

/-- The third byte of a group with these values. -/
def third (c d : Nat) : UInt8 := UInt8.ofNat (c % 4 * 64 + d)

/-- Reads what `encode` writes. -/
def decode? : List Char → Option Bytes
  | [] => some []
  | [a, b, '=', '='] => do
    let a ← value? a
    let b ← value? b
    if b % 16 = 0 then some [first a b] else none
  | [a, b, c, '='] => do
    let a ← value? a
    let b ← value? b
    let c ← value? c
    if c % 4 = 0 then some [first a b, second b c] else none
  | a :: b :: c :: d :: rest => do
    let a ← value? a
    let b ← value? b
    let c ← value? c
    let d ← value? d
    return first a b :: second b c :: third c d :: (← decode? rest)
  | _ => none

/-- A character of a text in base64. -/
inductive Symbol where
  | value (n : Nat)
  | pad
  deriving DecidableEq, Repr

/-- Whether a character between symbols is skipped. -/
def isBlank (c : Char) : Bool := c = ' ' || ('\t' ≤ c && c ≤ '\r')

/-- The symbols of a text. -/
def symbols? (text : List Char) : Option (List Symbol) :=
  (text.filter fun c => !isBlank c).mapM fun c =>
    if c = '=' then some .pad else (value? c).map .value

/-- Reads groups of four symbols; `even` tells whether an even number of groups went before.
Only the last group and the second of each two may be padded. -/
def groups? (even : Bool) : List Symbol → Option Bytes
  | [] => some []
  | [.value a, .value b] => some [first a b]
  | [.value a, .value b, .value c] => some [first a b, second b c]
  | [.value a, .value b, .pad] => some [first a b]
  | .value a :: .value b :: .value c :: .value d :: rest => do
    return first a b :: second b c :: third c d :: (← groups? (!even) rest)
  | .value a :: .value b :: .value c :: .pad :: rest =>
    if even && !rest.isEmpty then none
    else do return first a b :: second b c :: (← groups? (!even) rest)
  | .value a :: .value b :: .pad :: .pad :: rest =>
    if even && !rest.isEmpty then none
    else do return first a b :: (← groups? (!even) rest)
  | _ => none

/-- Reads a text with blanks, with or without padding. -/
def decodeLoose? (text : List Char) : Option Bytes := do
  groups? true (← symbols? text)

end Base64

end DeviceAccess
