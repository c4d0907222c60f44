import DeviceAccess.Crypto.Entropy

/-!
# Ids of sessions

Session ids are random: 122 random bits, written as 32 hexadecimal digits in five groups, of which two
places are fixed.  A new session gets the id of a drawn number or, should that be taken, of the first
number after it whose id is free.
-/

namespace DeviceAccess

namespace SessionId

/-- The last `size` hexadecimal digits of a number. -/
def hexDigits (size n : Nat) : String :=
  let written := Nat.toDigits 16 (n % Nat.pow 16 size)
  String.ofList (List.replicate (size - written.length) '0' ++ written)

/-- The id of a number. -/
def ofNumber (n : Nat) : String :=
  hexDigits 8 (n >>> 90) ++ "-" ++ hexDigits 4 (n >>> 74) ++ "-4" ++ hexDigits 3 (n >>> 62)
    ++ "-" ++ hexDigits 1 (8 + (n >>> 60) % 4) ++ hexDigits 3 (n >>> 48) ++ "-" ++ hexDigits 12 n

/-- Draws a number for an id. -/
def draw : StateM Entropy Nat := do
  let b ← Entropy.bytes 16
  return b.toNat % Nat.pow 2 122

/-- The first free id among those of `tries + 1` numbers from `number` on; the last of them if none
is free. -/
def firstFree (taken : String → Bool) (number : Nat) : Nat → String
  | 0 => ofNumber number
  | tries + 1 =>
    if taken (ofNumber number) then firstFree taken (number + 1) tries else ofNumber number

end SessionId

end DeviceAccess
