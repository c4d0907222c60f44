/-!
# Arithmetic modulo a number

Powers by repeated squaring, inverses by the extended Euclidean algorithm, and a test for primes.
-/

namespace DeviceAccess

namespace Modular

/-- `acc * base ^ exponent` modulo `m`. -/
def powFrom (acc base exponent m : Nat) : Nat :=
  if _h : exponent = 0 then acc % m
  else
    let acc := if exponent % 2 = 1 then acc * base % m else acc
    powFrom acc (base * base % m) (exponent / 2) m
termination_by exponent

/-- `base ^ exponent` modulo `m`. -/
def pow (base exponent m : Nat) : Nat := powFrom 1 (base % m) exponent m

theorem powFrom_eq (acc base exponent m : Nat) :
    powFrom acc base exponent m = acc * Nat.pow base exponent % m := by
  fun_induction powFrom acc base exponent m with
  | case1 => simp
  | case2 acc base e he acc' ih =>
    rw [ih]
    have square := (Nat.pow_mod (base * base) (e / 2) m).symm
    rw [← Nat.pow_two, ← Nat.pow_mul, Nat.pow_two] at square
    have step : ∀ x, x * Nat.pow (base * base % m) (e / 2) % m
        = x * Nat.pow base (2 * (e / 2)) % m := by
      intro x
      rw [Nat.mul_mod, Nat.pow_eq, square, ← Nat.mul_mod, Nat.pow_eq]
    rw [step]
    rcases Nat.mod_two_eq_zero_or_one e with h | h
    · have hacc : acc' = acc := by simp [acc', h]
      have : 2 * (e / 2) = e := by omega
      rw [hacc, this]
    · have hacc : acc' = acc * base % m := by simp [acc', h]
      have he : e = 2 * (e / 2) + 1 := by omega
      rw [hacc, Nat.mul_mod, Nat.mod_mod, ← Nat.mul_mod]
      conv => rhs; rw [he, Nat.pow_eq, Nat.pow_succ]
      congr 1
      rw [Nat.pow_eq, Nat.mul_assoc, Nat.mul_comm base]

/-- The power is the one of the numbers, reduced. -/
theorem pow_eq (base exponent m : Nat) :
    pow base exponent m = Nat.pow base exponent % m := by
  rw [pow, powFrom_eq, Nat.one_mul, Nat.pow_eq, Nat.pow_eq, ← Nat.pow_mod]

/-- The greatest common divisor of `r` and `next`, with the factor that `s` and `t` lead to. -/
def euclid (r next : Nat) (s t : Int) : Nat × Int :=
  if _h : next = 0 then (r, s)
  else euclid next (r % next) t (s - (r / next : Nat) * t)
termination_by next
decreasing_by exact Nat.mod_lt _ (by omega)

/-- The number that gives one when multiplied by `a` modulo `m`, if there is one. -/
def inverse? (a m : Nat) : Option Nat :=
  let (g, s) := euclid (a % m) m 1 0
  if g = 1 then some (s.emod m).toNat else none

/-- The inverse, or zero. -/
def inverse (a m : Nat) : Nat := (inverse? a m).getD 0

/-! ### Primes -/

/-- Squares a number `k` times and tells whether `n - 1` comes up before the last squaring. -/
def reachesMinusOne (n : Nat) : Nat → Nat → Bool
  | 0, _ => false
  | k + 1, x => x = n - 1 || reachesMinusOne n k (x * x % n)

/-- Splits off the factors two of a number: their count and what is left. -/
def twos (n : Nat) : Nat × Nat :=
  if _h : n = 0 ∨ n % 2 = 1 then (0, n)
  else
    let (k, rest) := twos (n / 2)
    (k + 1, rest)
termination_by n
decreasing_by omega

/-- Whether an odd number passes as a prime for a base. -/
def passesFor (n base : Nat) : Bool :=
  let (k, odd) := twos (n - 1)
  let x := pow base odd n
  x = 1 || reachesMinusOne n k x

/-- Primes that are tried as divisors. -/
def smallPrimes : List Nat :=
  (List.range 2000).filter fun n =>
    2 ≤ n && ((List.range 45).all fun d => d < 2 || n ≤ d || n % d ≠ 0)

/-- Whether a large odd number is a prime, but for a negligible chance. -/
def isProbablePrime (n : Nat) : Bool :=
  smallPrimes.all (fun p => n % p ≠ 0) && [2, 3, 5, 7, 11].all (passesFor n)

end Modular

end DeviceAccess
