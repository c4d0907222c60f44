/-!
# Durations

A duration is a whole number of nanoseconds, of so many seconds as a word of 64 bits can count.  What
does not fit is cut off at the greatest duration.

Multiplied by a floating-point number of 32 bits, a duration becomes a number of seconds first, then the
product, and only then a duration again; each of these steps rounds.  A product that is negative, no
number or too great is the greatest duration (`Duration.times`).
-/

namespace DeviceAccess

/-- A span of time in nanoseconds. -/
structure Duration where
  nanos : Nat
  isLt : nanos < UInt64.size * 1000000000
  deriving DecidableEq, Repr

namespace Duration

instance : LE Duration := ⟨fun a b => a.nanos ≤ b.nanos⟩

instance : LT Duration := ⟨fun a b => a.nanos < b.nanos⟩

instance (a b : Duration) : Decidable (a ≤ b) := inferInstanceAs (Decidable (a.nanos ≤ b.nanos))

instance (a b : Duration) : Decidable (a < b) := inferInstanceAs (Decidable (a.nanos < b.nanos))

/-- The greatest duration. -/
def greatest : Duration := ⟨UInt64.size * 1000000000 - 1, by decide⟩

/-- A number of nanoseconds, or the greatest duration if there are too many. -/
def ofNanos (n : Nat) : Duration :=
  if h : n < UInt64.size * 1000000000 then ⟨n, h⟩ else greatest

/-- A number of milliseconds. -/
def ofMillis (n : Nat) : Duration := ofNanos (n * 1000000)

/-- The first whole millisecond at which a duration is over. -/
def millis (d : Duration) : Nat := (d.nanos + 999999) / 1000000

/-- Numbers are milliseconds where durations are expected. -/
instance : Coe Nat Duration := ⟨ofMillis⟩

/-- Durations are milliseconds where numbers are expected. -/
instance : CoeOut Duration Nat := ⟨millis⟩

/-! ### Floating-point numbers -/

/-- The seconds of a duration: the whole ones and the rest, each as a number of 32 bits. -/
def seconds (d : Duration) : Float32 :=
  (d.nanos / 1000000000).toUInt64.toFloat32 +
    (d.nanos % 1000000000).toUInt64.toFloat32 / (1000000000 : UInt64).toFloat32

/-- The whole number nearest to a fraction, the even one of two. -/
def nearest (numerator denominator : Nat) : Nat :=
  let floor := numerator / denominator
  let rest := 2 * (numerator % denominator)
  if rest < denominator ∨ rest = denominator ∧ floor % 2 = 0 then floor else floor + 1

/-- How often a number of 32 bits holds the least one above zero, which is `2 ^ -149`, the sign left
aside; none if it is infinite or no number.  Its bits are the sign, eight bits of an exponent and 23 of a
significand, which has a leading one unless the exponent is zero. -/
def magnitude? (x : Float32) : Option Nat :=
  let exponent := x.toBits.toNat / 8388608 % 256
  let significand := x.toBits.toNat % 8388608
  if exponent = 255 then none
  else if exponent = 0 then some significand
  else some ((8388608 + significand) <<< (exponent - 1))

/-- The duration of a number of seconds, to the nearest nanosecond; the greatest one if there is none. -/
def ofSeconds (x : Float32) : Duration :=
  if x < 0 then greatest
  else
    match magnitude? x with
    | none => greatest
    | some m => ofNanos (nearest (m * 1000000000) (1 <<< 149))

/-- A multiple of a duration. -/
def times (multiplier : Float32) (d : Duration) : Duration := ofSeconds (multiplier * d.seconds)

end Duration

end DeviceAccess
