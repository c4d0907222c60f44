/-!
# Byte strings

Byte strings as lists, with their hexadecimal form, their big-endian value and the UTF-8 form
of texts.
-/

namespace DeviceAccess

/-- A byte string. -/
abbrev Bytes := List UInt8

namespace Bytes

/-! ### Texts -/

/-- The UTF-8 form of a text. -/
def ofText (s : String) : Bytes := s.toUTF8.data.toList

/-- The text that a byte string is the UTF-8 form of. -/
def toText? (b : Bytes) : Option String := String.fromUTF8? ⟨b.toArray⟩

/-- The text of bytes that stand for one character each. -/
def toLatin (b : Bytes) : String := String.ofList (b.map fun x => Char.ofNat x.toNat)

/-! ### Hexadecimal form -/

/-- The digit of a value below sixteen. -/
def hexDigit (n : Nat) : Char :=
  if n < 10 then Char.ofNat ('0'.toNat + n) else Char.ofNat ('a'.toNat + (n - 10))

/-- The value of a hexadecimal digit. -/
def hexValue? (c : Char) : Option Nat :=
  if '0' ≤ c ∧ c ≤ '9' then some (c.toNat - '0'.toNat)
  else if 'a' ≤ c ∧ c ≤ 'f' then some (c.toNat - 'a'.toNat + 10)
  else if 'A' ≤ c ∧ c ≤ 'F' then some (c.toNat - 'A'.toNat + 10)
  else none

/-- Two lower-case digits for each byte. -/
def toHex (b : Bytes) : String :=
  String.ofList (b.flatMap fun x => [hexDigit (x.toNat / 16), hexDigit (x.toNat % 16)])

/-- Reads two digits for each byte. -/
def ofHexChars? : List Char → Option Bytes
  | [] => some []
  | [_] => none
  | a :: b :: rest => do
    let high ← hexValue? a
    let low ← hexValue? b
    return UInt8.ofNat (16 * high + low) :: (← ofHexChars? rest)

/-- Reads the hexadecimal form of a byte string. -/
def ofHex? (s : String) : Option Bytes := ofHexChars? s.toList

/-! ### Values -/

/-- The big-endian value. -/
def toNat (b : Bytes) : Nat := b.foldl (fun n x => 256 * n + x.toNat) 0

/-- The last `size` bytes of the big-endian form of a number. -/
def ofNat : Nat → Nat → Bytes
  | 0, _ => []
  | size + 1, n => ofNat size (n / 256) ++ [UInt8.ofNat (n % 256)]

/-- The least number of bytes that hold a number. -/
def sizeOf (n : Nat) : Nat := (n.log2 + 8) / 8

/-- The big-endian form of a number without leading zeros; zero takes one byte. -/
def ofNatShort (n : Nat) : Bytes := ofNat (sizeOf n) n

end Bytes

end DeviceAccess
