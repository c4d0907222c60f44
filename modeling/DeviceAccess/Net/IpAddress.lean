/-!
# Internet addresses

The text forms of IPv4 and IPv6 addresses.  An IPv4 address is four decimal numbers below 256
without needless zeros.  An IPv6 address is eight groups of one to four hexadecimal digits; the
last two groups may be written as an IPv4 address, and one run of groups that are zero may be
left out.  `IpAddress.shown` is the canonical form: small letters, no needless zeros, the first
longest run of at least two zero groups left out, and an IPv4 address inside `::ffff:0:0/96`
written as such.
-/

namespace DeviceAccess

/-- An Internet address, by its bytes or its 16-bit groups. -/
inductive IpAddress where
  | v4 (bytes : List Nat)
  | v6 (groups : List Nat)
  deriving DecidableEq, Repr

namespace IpAddress

/-- The parts of a text between separators; there is always at least one. -/
def splitOn (sep : Char) : List Char → List (List Char)
  | [] => [[]]
  | c :: cs =>
    if c = sep then [] :: splitOn sep cs
    else match splitOn sep cs with
      | part :: parts => (c :: part) :: parts
      | [] => [[c]]

/-- The value of a hexadecimal digit. -/
def hexValue? (c : Char) : Option Nat :=
  if c.isDigit then some (c.toNat - '0'.toNat)
  else if 'a' ≤ c ∧ c ≤ 'f' then some (c.toNat - 'a'.toNat + 10)
  else if 'A' ≤ c ∧ c ≤ 'F' then some (c.toNat - 'A'.toNat + 10)
  else none

/-- Reads one number of an IPv4 address. -/
def byte? (text : List Char) : Option Nat :=
  if text.isEmpty || 3 < text.length || !text.all Char.isDigit then none
  else if 1 < text.length && text.head? = some '0' then none
  else
    let n := text.foldl (fun n c => n * 10 + (c.toNat - '0'.toNat)) 0
    if n < 256 then some n else none

/-- Reads an IPv4 address. -/
def bytes? (text : List Char) : Option (List Nat) := do
  let bytes ← (splitOn '.' text).mapM byte?
  if bytes.length = 4 then some bytes else none

/-- Reads one group of an IPv6 address. -/
def group? (text : List Char) : Option Nat :=
  if text.isEmpty || 4 < text.length then none
  else text.foldlM (fun n c => (hexValue? c).map (n * 16 + ·)) 0

/-- The two groups that the four bytes of an IPv4 address fill. -/
def groupsOfBytes : List Nat → List Nat
  | [a, b, c, d] => [a * 256 + b, c * 256 + d]
  | _ => []

/-- Reads groups with colons between them; the last may be an IPv4 address if `embedded`. -/
def groups? (embedded : Bool) : List (List Char) → Option (List Nat)
  | [] => some []
  | [last] =>
    match group? last with
    | some g => some [g]
    | none => if embedded then (bytes? last).map groupsOfBytes else none
  | part :: parts => do
    let g ← group? part
    let gs ← groups? embedded parts
    some (g :: gs)

/-- The text before and after the first `::`. -/
def splitGap : List Char → Option (List Char × List Char)
  | ':' :: ':' :: rest => some ([], rest)
  | c :: rest => (splitGap rest).map fun p => (c :: p.1, p.2)
  | [] => none

/-- Reads groups that may be absent altogether. -/
def groupsOrNone? (embedded : Bool) (text : List Char) : Option (List Nat) :=
  if text.isEmpty then some [] else groups? embedded (splitOn ':' text)

/-- Reads the eight groups of an IPv6 address. -/
def eightGroups? (text : List Char) : Option (List Nat) :=
  match splitGap text with
  | some (front, back) => do
    let front ← groupsOrNone? false front
    let back ← groupsOrNone? true back
    if front.length + back.length ≤ 7 then
      some (front ++ List.replicate (8 - front.length - back.length) 0 ++ back)
    else none
  | none => do
    let groups ← groups? true (splitOn ':' text)
    if groups.length = 8 then some groups else none

/-- Reads an address of either kind. -/
def parse? (text : String) : Option IpAddress :=
  match bytes? text.toList with
  | some bytes => some (v4 bytes)
  | none => (eightGroups? text.toList).map v6

/-! ### Canonical text -/

/-- The hexadecimal digits of a number, without needless zeros. -/
def hexDigits (n : Nat) : String := String.ofList (Nat.toDigits 16 n)

/-- Four numbers with points between them. -/
def shownBytes (bytes : List Nat) : String := ".".intercalate (bytes.map Nat.repr)

/-- Groups with colons between them. -/
def shownGroups (groups : List Nat) : String := ":".intercalate (groups.map hexDigits)

/-- Where the first longest run of zeros starts, and how long it is. -/
def longestGap (groups : List Nat) : Nat × Nat :=
  (List.range groups.length).foldl (fun best start =>
    let run := ((groups.drop start).takeWhile (· = 0)).length
    if best.2 < run then (start, run) else best) (0, 0)

/-- The canonical text of an address. -/
def shown : IpAddress → String
  | v4 bytes => shownBytes bytes
  | v6 groups =>
    match groups with
    | [0, 0, 0, 0, 0, 0xffff, a, b] =>
      "::ffff:" ++ shownBytes [a / 256, a % 256, b / 256, b % 256]
    | _ =>
      let (start, run) := longestGap groups
      if 1 < run then
        shownGroups (groups.take start) ++ "::" ++ shownGroups (groups.drop (start + run))
      else shownGroups groups

/-- The bytes of an address, most significant first. -/
def bytes : IpAddress → List Nat
  | v4 bytes => bytes
  | v6 groups => groups.flatMap fun g => [g / 256, g % 256]

/-- The address with the given bytes. -/
def ofBytes? (bytes : List Nat) : Option IpAddress :=
  match bytes with
  | [_, _, _, _] => some (v4 bytes)
  | [a, b, c, d, e, f, g, h, i, j, k, l, m, n, o, p] =>
    some (v6 [a * 256 + b, c * 256 + d, e * 256 + f, g * 256 + h, i * 256 + j, k * 256 + l,
      m * 256 + n, o * 256 + p])
  | _ => none

end IpAddress

end DeviceAccess
