import DeviceAccess.Encoding.Bytes

/-!
# The SHA-2 hash functions

SHA-256 works on words of 32 bits, SHA-384 and SHA-512 on words of 64 bits; apart from that and
from the amounts of their rotations they are one function.  Their constants are the first bits of
the fractional parts of square and cube roots of the first primes, and are computed as such.
-/

namespace DeviceAccess

namespace Sha2

/-! ### Constants -/

/-- The primes below 410: the first eighty. -/
def primes : List Nat :=
  (List.range 410).filter fun n => 2 ≤ n && (List.range n).all fun d => d < 2 || n % d ≠ 0

/-- The greatest number below `2 ^ bits` whose `k`-th power is at most `n`. -/
def root (k n bits : Nat) : Nat :=
  (List.range bits).foldr (fun i r =>
    if Nat.pow (r + Nat.pow 2 i) k ≤ n then r + Nat.pow 2 i else r) 0

/-- The first `bits` bits of the fractional part of the `k`-th root of a number below 512. -/
def rootFraction (k bits n : Nat) : Nat :=
  root k (n * Nat.pow 2 (k * bits)) (bits + 5) % Nat.pow 2 bits

/-! ### One function for both word sizes -/

/-- What tells the hash functions of one word size apart from those of the other. -/
structure Rounds (ω : Type) where
  wordBytes : Nat
  ofNat : Nat → ω
  toNat : ω → Nat
  /-- The mixing functions of the schedule and of the rounds. -/
  scheduleOlder : ω → ω
  scheduleNewer : ω → ω
  roundA : ω → ω
  roundE : ω → ω
  constants : List ω

/-- The eight words that are carried from block to block. -/
structure State (ω : Type) where
  a : ω
  b : ω
  c : ω
  d : ω
  e : ω
  f : ω
  g : ω
  h : ω

variable {ω : Type} [Add ω] [XorOp ω] [AndOp ω] [Complement ω] [Inhabited ω]

/-- Cuts a byte string into pieces of a size. -/
def pieces (size : Nat) (b : Bytes) : List Bytes :=
  if _h : size = 0 ∨ b = [] then []
  else b.take size :: pieces size (b.drop size)
termination_by b.length
decreasing_by
  have : b.length ≠ 0 := by simp_all
  simp only [List.length_drop]
  omega

/-- The message with a mark, zeros up to a whole number of blocks, and its length in bits. -/
def padded (wordBytes : Nat) (message : Bytes) : Bytes :=
  let block := 16 * wordBytes
  let lengthBytes := 2 * wordBytes
  let zeros := (2 * block - 1 - lengthBytes - message.length % block) % block
  message ++ 0x80 :: List.replicate zeros 0 ++ Bytes.ofNat lengthBytes (8 * message.length)

/-- The next word of the schedule, after the last sixteen, of which the newest comes first. -/
def nextWord (r : Rounds ω) (w : List ω) : ω :=
  r.scheduleNewer (w.getD 1 default) + w.getD 6 default
    + r.scheduleOlder (w.getD 14 default) + w.getD 15 default

/-- One round with a word of the schedule and a constant. -/
def round (r : Rounds ω) (s : State ω) (w k : ω) : State ω :=
  let choice := (s.e &&& s.f) ^^^ (~~~ s.e &&& s.g)
  let majority := (s.a &&& s.b) ^^^ (s.a &&& s.c) ^^^ (s.b &&& s.c)
  let t := s.h + r.roundE s.e + choice + k + w
  ⟨t + r.roundA s.a + majority, s.a, s.b, s.c, s.d + t, s.e, s.f, s.g⟩

/-- The state and the last sixteen words of the schedule after the remaining rounds. -/
def rounds (r : Rounds ω) (s : State ω) (upcoming past : List ω) : List ω → State ω
  | [] => s
  | k :: ks =>
    match upcoming with
    | w :: more => rounds r (round r s w k) more (w :: past) ks
    | [] =>
      let w := nextWord r past
      rounds r (round r s w k) [] (w :: past.take 15) ks

/-- The state after one more block. -/
def compress (r : Rounds ω) (s : State ω) (block : Bytes) : State ω :=
  let words := (pieces r.wordBytes block).map fun b => r.ofNat b.toNat
  let t := rounds r s words [] r.constants
  ⟨s.a + t.a, s.b + t.b, s.c + t.c, s.d + t.d, s.e + t.e, s.f + t.f, s.g + t.g, s.h + t.h⟩

/-- The words of a state. -/
def State.words (s : State ω) : List ω := [s.a, s.b, s.c, s.d, s.e, s.f, s.g, s.h]

/-- The state after a message, as bytes. -/
def digest (r : Rounds ω) (start : State ω) (message : Bytes) : Bytes :=
  let blocks := pieces (16 * r.wordBytes) (padded r.wordBytes message)
  ((blocks.foldl (compress r) start).words).flatMap fun w => Bytes.ofNat r.wordBytes (r.toNat w)

/-- A state from eight of the primes. -/
def State.ofPrimes (r : Rounds ω) (bits : Nat) (ps : List Nat) : State ω :=
  let w := fun i => r.ofNat (rootFraction 2 bits (ps.getD i 0))
  ⟨w 0, w 1, w 2, w 3, w 4, w 5, w 6, w 7⟩

/-! ### The two word sizes -/

/-- Rotation to the right. -/
def rotate32 (w : UInt32) (n : UInt32) : UInt32 := (w >>> n) ||| (w <<< (32 - n))

/-- Rotation to the right. -/
def rotate64 (w : UInt64) (n : UInt64) : UInt64 := (w >>> n) ||| (w <<< (64 - n))

/-- The rounds on words of 32 bits. -/
def rounds32 : Rounds UInt32 where
  wordBytes := 4
  ofNat := UInt32.ofNat
  toNat := UInt32.toNat
  scheduleOlder := fun w => rotate32 w 7 ^^^ rotate32 w 18 ^^^ (w >>> 3)
  scheduleNewer := fun w => rotate32 w 17 ^^^ rotate32 w 19 ^^^ (w >>> 10)
  roundA := fun w => rotate32 w 2 ^^^ rotate32 w 13 ^^^ rotate32 w 22
  roundE := fun w => rotate32 w 6 ^^^ rotate32 w 11 ^^^ rotate32 w 25
  constants := (primes.take 64).map fun p => UInt32.ofNat (rootFraction 3 32 p)

/-- The rounds on words of 64 bits. -/
def rounds64 : Rounds UInt64 where
  wordBytes := 8
  ofNat := UInt64.ofNat
  toNat := UInt64.toNat
  scheduleOlder := fun w => rotate64 w 1 ^^^ rotate64 w 8 ^^^ (w >>> 7)
  scheduleNewer := fun w => rotate64 w 19 ^^^ rotate64 w 61 ^^^ (w >>> 6)
  roundA := fun w => rotate64 w 28 ^^^ rotate64 w 34 ^^^ rotate64 w 39
  roundE := fun w => rotate64 w 14 ^^^ rotate64 w 18 ^^^ rotate64 w 41
  constants := primes.map fun p => UInt64.ofNat (rootFraction 3 64 p)

/-- The state that SHA-256 starts from. -/
def start256 : State UInt32 := .ofPrimes rounds32 32 primes

/-- The state that SHA-512 starts from. -/
def start512 : State UInt64 := .ofPrimes rounds64 64 primes

/-- The state that SHA-384 starts from. -/
def start384 : State UInt64 := .ofPrimes rounds64 64 (primes.drop 8)

end Sha2

/-- The SHA-256 hash of a message. -/
def sha256 (message : Bytes) : Bytes := Sha2.digest Sha2.rounds32 Sha2.start256 message

/-- The SHA-384 hash of a message. -/
def sha384 (message : Bytes) : Bytes := (Sha2.digest Sha2.rounds64 Sha2.start384 message).take 48

/-- The SHA-512 hash of a message. -/
def sha512 (message : Bytes) : Bytes := Sha2.digest Sha2.rounds64 Sha2.start512 message

/-- The hash functions that signatures use. -/
inductive HashFunction where
  | sha256
  | sha384
  | sha512
  deriving DecidableEq, Repr

/-- The hash of a message. -/
def HashFunction.hash : HashFunction → Bytes → Bytes
  | sha256 => DeviceAccess.sha256
  | sha384 => DeviceAccess.sha384
  | sha512 => DeviceAccess.sha512

end DeviceAccess
