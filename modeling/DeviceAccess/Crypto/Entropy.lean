import DeviceAccess.Crypto.Sha2

/-!
# Random bytes

A source of random bytes is a seed and the number of blocks that were drawn from it; every block
is the hash of the seed and of its number.  Drawing bytes is an operation on the source, so two
draws never give the same block.
-/

namespace DeviceAccess

/-- A source of random bytes. -/
structure Entropy where
  seed : Bytes
  drawn : Nat
  deriving DecidableEq

namespace Entropy

/-- A new source. -/
def ofSeed (seed : Bytes) : Entropy := ⟨seed, 0⟩

/-- The block of a number. -/
def block (e : Entropy) (n : Nat) : Bytes := sha256 (e.seed ++ Bytes.ofNat 8 n)

/-- Draws a number of bytes. -/
def bytes (size : Nat) : StateM Entropy Bytes := fun e =>
  let count := (size + 31) / 32
  let drawn := (List.range count).flatMap fun i => e.block (e.drawn + i)
  (drawn.take size, { e with drawn := e.drawn + count })

/-- Draws a number from one to `bound - 1`. -/
def below (bound : Nat) : StateM Entropy Nat := do
  let b ← bytes (Bytes.sizeOf bound + 8)
  return b.toNat % (bound - 1) + 1

end Entropy

end DeviceAccess
