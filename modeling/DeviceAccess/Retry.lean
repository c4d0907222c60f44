import DeviceAccess.Duration
import DeviceAccess.Fault

/-!
# Repeating failed calls

A call that fails with a fault worth repeating is made again after a wait.  The first wait is
the initial delay; each later one is the wait before it times a factor, as long as that wait is
below the greatest delay, and never more than the greatest delay.  A policy may bound the number
of calls; at least one is always made.

`RetryPolicy.next` decides after each call; `RetryPolicy.run` follows a list of outcomes.  Both are
instances of definitions that take the waits as given (`RetryPolicy.nextBy`, `RetryPolicy.runBy`), and
the waits are those of one way of multiplying durations (`RetryPolicy.delayBy`).
-/

namespace DeviceAccess

/-- A factor of delays, as it is written: a quotient of whole numbers. -/
structure Factor where
  numerator : Int
  denominator : Nat
  deriving DecidableEq, Repr

/-- The number that a factor stands for.  Over zero it is infinite or no number. -/
def Factor.value (f : Factor) : Float32 := Float32.ofInt f.numerator / Float32.ofNat f.denominator

/-- How often and after which waits a call is repeated. -/
structure RetryPolicy where
  /-- The greatest number of calls; none if there is no bound. -/
  maxCalls : Option Nat
  initialDelay : Duration
  maxDelay : Duration
  factor : Factor
  deriving DecidableEq, Repr

namespace RetryPolicy

/-- A bounded number of calls, with delays that double up to eight times the first. -/
def bounded (calls : Nat) (initialDelay : Duration) : RetryPolicy :=
  ⟨some (max calls 1), initialDelay, .ofNanos (initialDelay.nanos * 8), ⟨2, 1⟩⟩

/-- Any number of calls, with delays that double. -/
def unbounded (initialDelay maxDelay : Duration) : RetryPolicy :=
  ⟨none, initialDelay, maxDelay, ⟨2, 1⟩⟩

/-! ### Waits -/

/-- A wait, cut off at the greatest delay. -/
def cap (p : RetryPolicy) (delay : Duration) : Duration :=
  if p.maxDelay < delay then p.maxDelay else delay

/-- The wait that follows a wait, as a multiplication grows it. -/
def delayAfter (p : RetryPolicy) (times : Duration → Duration) (delay : Duration) : Duration :=
  p.cap (if delay < p.maxDelay then times delay else delay)

/-- The wait before the call that follows the first `calls + 1` calls, as a multiplication grows it. -/
def delayBy (p : RetryPolicy) (times : Duration → Duration) : Nat → Duration
  | 0 => p.initialDelay
  | calls + 1 => p.delayAfter times (p.delayBy times calls)

/-- The wait before the call that follows the first `calls + 1` calls. -/
def delay (p : RetryPolicy) : Nat → Duration := p.delayBy (Duration.times p.factor.value)

/-! ### Calls -/

/-- Whether another call may follow `calls` calls. -/
def allows (p : RetryPolicy) (calls : Nat) : Bool :=
  match p.maxCalls with
  | none => true
  | some n => calls < max n 1

/-- The wait before the next call, if there is to be one, after the call of number `calls`
(the first is number 1) had an outcome. -/
def nextBy {α : Type} (p : RetryPolicy) (waits : Nat → Duration) (worthRepeating : Fault → Bool)
    (calls : Nat) : Except Fault α → Option Duration
  | .ok _ => none
  | .error e => if worthRepeating e && p.allows calls then some (waits (calls - 1)) else none

/-- The wait before the next call, with the waits of the policy. -/
def next {α : Type} (p : RetryPolicy) (worthRepeating : Fault → Bool) (calls : Nat) :
    Except Fault α → Option Duration :=
  p.nextBy p.delay worthRepeating calls

/-- What a series of calls came to. -/
structure Outcome (α : Type) where
  /-- The time of every call, in milliseconds from the first. -/
  callTimes : List Nat
  result : Except Fault α

/-- Follows the calls from number `calls + 1` at time `now`; call outcomes are those of the
list and `last` from then on, which succeeds. -/
def runFrom {α : Type} (p : RetryPolicy) (waits : Nat → Duration) (worthRepeating : Fault → Bool)
    (last : α) (calls now : Nat) : List (Except Fault α) → Outcome α
  | [] => ⟨[now], .ok last⟩
  | outcome :: outcomes =>
    match p.nextBy waits worthRepeating (calls + 1) outcome with
    | none => ⟨[now], outcome⟩
    | some wait =>
      let later := p.runFrom waits worthRepeating last (calls + 1) (now + wait.millis) outcomes
      ⟨now :: later.callTimes, later.result⟩

/-- Follows the calls whose outcomes are those of the list and `last` from then on. -/
def runBy {α : Type} (p : RetryPolicy) (waits : Nat → Duration) (worthRepeating : Fault → Bool)
    (last : α) (outcomes : List (Except Fault α)) : Outcome α :=
  p.runFrom waits worthRepeating last 0 0 outcomes

/-- Follows the calls, with the waits of the policy. -/
def run {α : Type} (p : RetryPolicy) (worthRepeating : Fault → Bool) (last : α)
    (outcomes : List (Except Fault α)) : Outcome α :=
  p.runBy p.delay worthRepeating last outcomes

end RetryPolicy

end DeviceAccess
