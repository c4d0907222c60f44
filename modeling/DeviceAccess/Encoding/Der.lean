import DeviceAccess.Encoding.Bytes

/-!
# DER

Values as elements of a tag, a length and a content, in the distinguished encoding: every value
has one written form.  Readers are functions on the bytes that are left; they fail on lengths that
are not written in the shortest way and on tags of more than one byte.
-/

namespace DeviceAccess

namespace Der

/-! ### Tags -/

def booleanTag : UInt8 := 0x01
def integerTag : UInt8 := 0x02
def bitStringTag : UInt8 := 0x03
def octetStringTag : UInt8 := 0x04
def nullTag : UInt8 := 0x05
def objectIdTag : UInt8 := 0x06
def utf8StringTag : UInt8 := 0x0c
def numericStringTag : UInt8 := 0x12
def printableStringTag : UInt8 := 0x13
def ia5StringTag : UInt8 := 0x16
def utcTimeTag : UInt8 := 0x17
def generalizedTimeTag : UInt8 := 0x18
def sequenceTag : UInt8 := 0x30
def setTag : UInt8 := 0x31

/-- The tag of a part that is told by its number, with a value of its own. -/
def plainTag (n : UInt8) : UInt8 := 0x80 + n

/-- The tag of a part that is told by its number, with elements inside. -/
def nestedTag (n : UInt8) : UInt8 := 0xa0 + n

/-! ### Writing -/

/-- The written form of a length. -/
def length (n : Nat) : Bytes :=
  if n < 128 then [UInt8.ofNat n]
  else
    let digits := Bytes.ofNatShort n
    UInt8.ofNat (0x80 + digits.length) :: digits

/-- An element. -/
def element (tag : UInt8) (content : Bytes) : Bytes := tag :: length content.length ++ content

/-- A sequence of written elements. -/
def sequence (parts : List Bytes) : Bytes := element sequenceTag parts.flatten

/-- A set of written elements. -/
def set (parts : List Bytes) : Bytes := element setTag parts.flatten

/-- The content of a natural number. -/
def natContent (n : Nat) : Bytes :=
  let digits := Bytes.ofNatShort n
  if 128 ≤ (digits.headD 0).toNat then 0 :: digits else digits

/-- A natural number. -/
def nat (n : Nat) : Bytes := element integerTag (natContent n)

/-- A string of whole bytes as bits. -/
def bitString (b : Bytes) : Bytes := element bitStringTag (0 :: b)

def octetString (b : Bytes) : Bytes := element octetStringTag b
def null : Bytes := element nullTag []
def boolean (b : Bool) : Bytes := element booleanTag [if b then 0xff else 0]

/-- The digits of a number to the base 128, all but the last marked. -/
def arc (n : Nat) : Bytes :=
  if _h : n < 128 then [UInt8.ofNat n]
  else (arc (n / 128)).map (· ||| 0x80) ++ [UInt8.ofNat (n % 128)]

/-- The content of an object identifier. -/
def oid : List Nat → Bytes
  | a :: b :: rest => arc (40 * a + b) ++ rest.flatMap arc
  | _ => []

/-- An object identifier, by its content. -/
def objectId (content : Bytes) : Bytes := element objectIdTag content

/-! ### Reading -/

/-- A read element. -/
structure Element where
  tag : UInt8
  content : Bytes
  /-- The element as it was written. -/
  written : Bytes
  deriving DecidableEq

/-- A function on the bytes that are left. -/
abbrev Reader := StateT Bytes Option

/-- Reads a length: the number of bytes it takes, and its value. -/
def readLength? : Bytes → Option (Nat × Nat)
  | [] => none
  | b :: rest =>
    if b < 0x80 then some (1, b.toNat)
    else
      let size := b.toNat - 0x80
      let digits := rest.take size
      let n := Bytes.toNat digits
      if size = 0 ∨ 4 < size ∨ digits.length < size ∨ n < 128 ∨ digits.head? = some 0 then none
      else some (1 + size, n)

/-- Reads an element. -/
def next : Reader Element := fun input =>
  match input with
  | [] => none
  | tag :: rest =>
    if tag &&& 0x1f = 0x1f then none
    else do
      let (size, n) ← readLength? rest
      let content := (rest.drop size).take n
      if content.length < n then none
      else some (⟨tag, content, input.take (1 + size + n)⟩, rest.drop (size + n))

theorem next_length {input rest : Bytes} {e : Element} (h : next input = some (e, rest)) :
    rest.length < input.length := by
  unfold next at h
  cases input with
  | nil => simp at h
  | cons tag more =>
    simp only at h
    split at h
    · simp at h
    · cases hl : readLength? more with
      | none => simp [hl] at h
      | some p =>
        obtain ⟨size, n⟩ := p
        simp only [hl] at h
        simp only [Option.bind_eq_bind, Option.bind_some] at h
        split at h
        · simp at h
        · simp only [Option.some.injEq, Prod.mk.injEq] at h
          rw [← h.2]
          simp only [List.length_drop, List.length_cons]
          omega

/-- Reads an element of a tag. -/
def expect (tag : UInt8) : Reader Element := do
  let e ← next
  if e.tag = tag then return e else failure

/-- Reads the content of an element of a tag. -/
def contentOf (tag : UInt8) : Reader Bytes := return (← expect tag).content

/-- Reads an element of a tag, if one comes next. -/
def optional (tag : UInt8) : Reader (Option Element) := fun input =>
  if input.head? = some tag then (expect tag).map some |>.run input
  else some (none, input)

/-- Fails unless all is read. -/
def finished : Reader Unit := fun input => if input.isEmpty then some ((), []) else none

/-- Reads the whole of a byte string. -/
def whole {α : Type} (read : Reader α) (input : Bytes) : Option α :=
  (do
    let a ← read
    finished
    return a : Reader α).run' input

/-- Reads what is inside an element of a tag. -/
def inside {α : Type} (tag : UInt8) (read : Reader α) : Reader α := do
  let content ← contentOf tag
  match whole read content with
  | some a => return a
  | none => failure

/-- The elements that a byte string consists of. -/
def elements? (input : Bytes) : Option (List Element) :=
  match _h : next input with
  | some (e, rest) => (elements? rest).map (e :: ·)
  | none => if input.isEmpty then some [] else none
termination_by input.length
decreasing_by exact next_length _h

/-- The value of the content of a natural number. -/
def natValue? (content : Bytes) : Option Nat :=
  match content with
  | [] => none
  | [b] => if b < 0x80 then some b.toNat else none
  | a :: b :: rest =>
    if 0x80 ≤ a ∨ (a = 0 ∧ b < 0x80) then none else some (Bytes.toNat (a :: b :: rest))

/-- Reads a natural number. -/
def readNat : Reader Nat := do
  match natValue? (← contentOf integerTag) with
  | some n => return n
  | none => failure

/-- Reads a bit string of whole bytes. -/
def readBitString : Reader Bytes := do
  match ← contentOf bitStringTag with
  | 0 :: b => return b
  | _ => failure

end Der

end DeviceAccess
