import Mathlib.Data.List.Range
import Mathlib.Data.Nat.Find
import DeviceAccess.Retry

/-!
# How often a call is made, and when

A series of calls ends with the first call that succeeds, or fails with a fault that is not worth
repeating, or is the last that the policy allows (`RetryPolicy.IsLastCall`).  Whatever outcomes would
come after it, the series makes just the calls up to this one and has its outcome
(`RetryPolicy.runBy_of_isLastCall`); without such a call it goes on for ever, and its policy has no bound
(`RetryPolicy.runBy_of_forall_not_ends`).  The waits have no part in this.

A policy can be kept as a source of waits instead, which says at last that there is none
(`RetryPolicy.Backoff`).  Such a source counts waits and not calls, and counts them in a word of 64
bits; a policy without a bound gets the greatest count there is.  As long as fewer calls are made than a
word can count, nobody can tell the two apart (`RetryPolicy.follow_backoff`).
-/

namespace DeviceAccess

namespace RetryPolicy

variable {α : Type}

/-! ### The last call -/

section
variable (p : RetryPolicy) (worthRepeating : Fault → Bool) (outcomes : Nat → Except Fault α)

/-- The series may not go on after call `n`, the first being call 1: the call succeeds, or its fault is
not worth repeating, or the policy allows no more than `n` calls. -/
def Ends (n : Nat) : Prop :=
  (∃ a, outcomes n = .ok a) ∨ (∃ e, outcomes n = .error e ∧ worthRepeating e = false) ∨
    p.maxCalls.map (max 1) = some n

/-- The series may go on after all calls before call `n`, but not after this one. -/
structure IsLastCall (n : Nat) : Prop where
  pos : 1 ≤ n
  ends : p.Ends worthRepeating outcomes n
  goesOn : ∀ m, 1 ≤ m → m < n → ¬p.Ends worthRepeating outcomes m

end

/-- The time of call `i + 1` in milliseconds, counted from the first call. -/
def callTime (waits : Nat → Duration) : Nat → Nat
  | 0 => 0
  | i + 1 => callTime waits i + (waits i).millis

/-- The outcomes of the first `n` calls. -/
def firstOutcomes (outcomes : Nat → Except Fault α) (n : Nat) : List (Except Fault α) :=
  (List.range' 1 n).map outcomes

variable {p : RetryPolicy} {waits : Nat → Duration} {times : Duration → Duration}
  {worthRepeating : Fault → Bool} {outcomes : Nat → Except Fault α} {n : Nat}

theorem nextBy_of_ends (h : p.Ends worthRepeating outcomes n) :
    p.nextBy waits worthRepeating n (outcomes n) = none := by
  rcases h with ⟨a, ha⟩ | ⟨e, he, hrepeat⟩ | hbound
  · rw [ha]
    rfl
  · rw [he, nextBy, hrepeat]
    rfl
  · obtain ⟨b, hb, rfl⟩ := Option.map_eq_some_iff.1 hbound
    have hallows : p.allows (max 1 b) = false := by
      unfold allows
      rw [hb, max_comm]
      simp
    cases outcomes (max 1 b) with
    | ok a => rfl
    | error e =>
        rw [nextBy, hallows, Bool.and_false]
        rfl

/-- A series that has not ended may make another call. -/
theorem allows_of_forall_not_ends
    (h : ∀ m, 1 ≤ m → m ≤ n → ¬p.Ends worthRepeating outcomes m) : p.allows n = true := by
  unfold allows
  cases hbound : p.maxCalls with
  | none => rfl
  | some b =>
      simp only [decide_eq_true_eq]
      by_contra hle
      have hends : p.Ends worthRepeating outcomes (max 1 b) := .inr (.inr (by rw [hbound]; rfl))
      exact h (max 1 b) (by omega) (by omega) hends

/-- A call that does not end the series fails, with a fault that is worth repeating, and is not the last
one that the policy allows. -/
theorem not_ends_iff :
    ¬p.Ends worthRepeating outcomes n ↔
      (∃ e, outcomes n = .error e ∧ worthRepeating e = true) ∧ p.maxCalls.map (max 1) ≠ some n := by
  unfold Ends
  cases outcomes n with
  | ok a => simp
  | error e => simp

theorem nextBy_of_forall_not_ends (hn : 1 ≤ n)
    (h : ∀ m, 1 ≤ m → m ≤ n → ¬p.Ends worthRepeating outcomes m) :
    p.nextBy waits worthRepeating n (outcomes n) = some (waits (n - 1)) := by
  obtain ⟨⟨e, he, hrepeat⟩, -⟩ := not_ends_iff.1 (h n hn (Nat.le_refl n))
  rw [he, nextBy, hrepeat, allows_of_forall_not_ends h]
  rfl

/-- A bounded series has a last call. -/
theorem exists_isLastCall {b : Nat} (hb : p.maxCalls = some b) (worthRepeating : Fault → Bool)
    (outcomes : Nat → Except Fault α) :
    ∃ n ≤ max 1 b, p.IsLastCall worthRepeating outcomes n := by
  classical
  have hends : ∃ n, 1 ≤ n ∧ p.Ends worthRepeating outcomes n :=
    ⟨max 1 b, Nat.le_max_left 1 b, .inr (.inr (by rw [hb]; rfl))⟩
  refine ⟨Nat.find hends, Nat.find_min' hends ⟨Nat.le_max_left 1 b, .inr (.inr (by rw [hb]; rfl))⟩, ?_⟩
  obtain ⟨hpos, hlast⟩ := Nat.find_spec hends
  exact ⟨hpos, hlast, fun m hm hlt hm' => Nat.find_min hends hlt ⟨hm, hm'⟩⟩

/-- A series without a last call is not ended by any call. -/
theorem forall_not_ends_of_not_isLastCall (h : ∀ n, ¬p.IsLastCall worthRepeating outcomes n) :
    ∀ n, 1 ≤ n → ¬p.Ends worthRepeating outcomes n := by
  intro n
  induction n using Nat.strong_induction_on with
  | h n ih => exact fun hn hends => h n ⟨hn, hends, fun m hm hlt => ih m hlt hm⟩

/-! ### Series of calls -/

/-- The calls from call `i + 1` up to the last one, `k` calls later. -/
theorem runFrom_of_ends (waits : Nat → Duration) (last : α) (later : List (Except Fault α)) {i k : Nat}
    (hends : p.Ends worthRepeating outcomes (i + k + 1))
    (hgoesOn : ∀ m, 1 ≤ m → m < i + k + 1 → ¬p.Ends worthRepeating outcomes m) :
    p.runFrom waits worthRepeating last i (callTime waits i)
        ((List.range' (i + 1) (k + 1)).map outcomes ++ later) =
      ⟨(List.range' i (k + 1)).map (callTime waits), outcomes (i + k + 1)⟩ := by
  induction k generalizing i with
  | zero =>
      rw [List.range'_succ, List.map_cons, List.cons_append, runFrom, nextBy_of_ends hends]
      rfl
  | succ k ih =>
      have hindex : i + 1 + k + 1 = i + (k + 1) + 1 := by omega
      have hlater := ih (i := i + 1) (hindex ▸ hends) (hindex ▸ hgoesOn)
      rw [hindex] at hlater
      have hnext : p.nextBy waits worthRepeating (i + 1) (outcomes (i + 1)) = some (waits i) :=
        nextBy_of_forall_not_ends (Nat.succ_pos i) fun m hm hle => hgoesOn m hm (by omega)
      rw [List.range'_succ, List.map_cons, List.cons_append, runFrom, hnext]
      simp only
      rw [show callTime waits i + (waits i).millis = callTime waits (i + 1) from rfl, hlater,
        List.range'_succ (s := i)]
      rfl

/-- **A series is the calls up to the last one**, whatever outcomes would come later. -/
theorem runBy_of_isLastCall (h : p.IsLastCall worthRepeating outcomes n) (last : α)
    (later : List (Except Fault α)) :
    p.runBy waits worthRepeating last (firstOutcomes outcomes n ++ later) =
      ⟨(List.range n).map (callTime waits), outcomes n⟩ := by
  obtain ⟨k, rfl⟩ : ∃ k, n = 0 + k + 1 := ⟨n - 1, by have := h.pos; omega⟩
  have hrun := runFrom_of_ends waits last later h.ends h.goesOn
  simp only [Nat.zero_add] at hrun ⊢
  rw [List.range_eq_range']
  exact hrun

/-- Calls that do not end the series are all followed by another one. -/
theorem runFrom_of_forall_not_ends (last : α) {i k : Nat}
    (h : ∀ m, 1 ≤ m → m ≤ i + k → ¬p.Ends worthRepeating outcomes m) :
    p.runFrom waits worthRepeating last i (callTime waits i) ((List.range' (i + 1) k).map outcomes) =
      ⟨(List.range' i (k + 1)).map (callTime waits), .ok last⟩ := by
  induction k generalizing i with
  | zero => rfl
  | succ k ih =>
      have hlater := ih (i := i + 1) fun m hm hle => h m hm (by omega)
      have hnext : p.nextBy waits worthRepeating (i + 1) (outcomes (i + 1)) = some (waits i) :=
        nextBy_of_forall_not_ends (Nat.succ_pos i) fun m hm hle => h m hm (by omega)
      rw [List.range'_succ, List.map_cons, runFrom, hnext]
      simp only
      rw [show callTime waits i + (waits i).millis = callTime waits (i + 1) from rfl, hlater,
        List.range'_succ (s := i)]
      rfl

/-- **A series without a last call goes on for ever**: after any number of calls there is another. -/
theorem runBy_of_forall_not_ends (h : ∀ m, 1 ≤ m → ¬p.Ends worthRepeating outcomes m) (last : α)
    (n : Nat) : p.runBy waits worthRepeating last (firstOutcomes outcomes n) =
      ⟨(List.range (n + 1)).map (callTime waits), .ok last⟩ := by
  rw [List.range_eq_range']
  exact runFrom_of_forall_not_ends last fun m hm _ => h m hm

/-! ### Waits -/

theorem cap_le (p : RetryPolicy) (delay : Duration) : p.cap delay ≤ p.maxDelay := by
  unfold cap
  split
  · exact Nat.le_refl _
  · next hcap => exact Nat.le_of_not_lt hcap

theorem le_cap {delay grown : Duration} (hdelay : delay ≤ p.maxDelay) (hgrown : delay ≤ grown) :
    delay ≤ p.cap grown := by
  unfold cap
  split
  · exact hdelay
  · exact hgrown

theorem delayBy_succ_le (p : RetryPolicy) (times : Duration → Duration) (i : Nat) :
    p.delayBy times (i + 1) ≤ p.maxDelay :=
  p.cap_le _

theorem le_delayAfter {delay : Duration} (htimes : ∀ delay < p.maxDelay, delay ≤ times delay)
    (hdelay : delay ≤ p.maxDelay) : delay ≤ p.delayAfter times delay := by
  refine le_cap hdelay ?_
  split
  · next hlt => exact htimes delay hlt
  · exact Nat.le_refl _

/-- Waits never get shorter if the first one is not above the greatest delay, and no wait below that is
multiplied to a shorter one. -/
theorem delayBy_le_delayBy_succ (hinitial : p.initialDelay ≤ p.maxDelay)
    (htimes : ∀ delay < p.maxDelay, delay ≤ times delay) (i : Nat) :
    p.delayBy times i ≤ p.delayBy times (i + 1) := by
  cases i with
  | zero => exact le_delayAfter htimes hinitial
  | succ i => exact le_delayAfter htimes (p.delayBy_succ_le times i)

/-! ### Policies as sources of waits -/

/-- A source of waits. -/
structure Backoff where
  minDelay : Duration
  maxDelay : Duration
  /-- The greatest number of waits. -/
  maxTimes : Nat
  /-- Number of waits given so far. -/
  given : Nat
  /-- The wait that was given last. -/
  current : Option Duration
  deriving DecidableEq, Repr

namespace Backoff

/-- The wait that comes next: the least delay first, and then the wait before it, multiplied as long as
it is below the greatest delay, and never more than the greatest delay. -/
def wait (times : Duration → Duration) (b : Backoff) : Duration :=
  match b.current with
  | none => b.minDelay
  | some delay =>
    let grown := if delay < b.maxDelay then times delay else delay
    if b.maxDelay < grown then b.maxDelay else grown

/-- The next wait, unless there is none, and the source after it. -/
def next? (times : Duration → Duration) (b : Backoff) : Option (Duration × Backoff) :=
  if b.given < b.maxTimes then
    some (b.wait times, { b with given := b.given + 1, current := some (b.wait times) })
  else none

/-- Follows the calls from time `now`, with the waits of a source; call outcomes are those of the list
and `last` from then on. -/
def follow (times : Duration → Duration) (worthRepeating : Fault → Bool) (last : α) (now : Nat)
    (b : Backoff) : List (Except Fault α) → Outcome α
  | [] => ⟨[now], .ok last⟩
  | .ok a :: _ => ⟨[now], .ok a⟩
  | .error e :: outcomes =>
    if worthRepeating e then
      match b.next? times with
      | none => ⟨[now], .error e⟩
      | some (wait, b) =>
        let later := follow times worthRepeating last (now + wait.millis) b outcomes
        ⟨now :: later.callTimes, later.result⟩
    else ⟨[now], .error e⟩

end Backoff

/-- How many waits there are between the calls of a policy: one less than calls, and without a bound as
many as a word can count. -/
def repeats (p : RetryPolicy) : Nat :=
  match p.maxCalls with
  | none => UInt64.size - 1
  | some calls => calls - 1

/-- A policy as a source of waits. -/
def backoff (p : RetryPolicy) : Backoff := ⟨p.initialDelay, p.maxDelay, p.repeats, 0, none⟩

/-- The source after `i` waits. -/
def backoffAfter (p : RetryPolicy) (times : Duration → Duration) (i : Nat) : Backoff :=
  { p.backoff with given := i, current := if i = 0 then none else some (p.delayBy times (i - 1)) }

theorem wait_backoffAfter (p : RetryPolicy) (times : Duration → Duration) (i : Nat) :
    (p.backoffAfter times i).wait times = p.delayBy times i := by
  cases i with
  | zero => rfl
  | succ i => rfl

theorem next?_backoffAfter (p : RetryPolicy) (times : Duration → Duration) (i : Nat) :
    (p.backoffAfter times i).next? times =
      if i < p.repeats then some (p.delayBy times i, p.backoffAfter times (i + 1)) else none := by
  unfold Backoff.next?
  rw [wait_backoffAfter]
  rfl

/-- Waits are counted one less than calls. -/
theorem lt_repeats_iff {i : Nat} (hi : p.maxCalls = none → i + 1 < UInt64.size) :
    i < p.repeats ↔ p.allows (i + 1) = true := by
  unfold repeats allows
  cases hbound : p.maxCalls with
  | none =>
      have := hi hbound
      simp only [iff_true]
      omega
  | some b =>
      simp only [decide_eq_true_eq]
      omega

theorem follow_backoffAfter (last : α) {outcomes : List (Except Fault α)} {i : Nat}
    (hcount : p.maxCalls = none → i + outcomes.length < UInt64.size) (now : Nat) :
    (p.backoffAfter times i).follow times worthRepeating last now outcomes =
      p.runFrom (p.delayBy times) worthRepeating last i now outcomes := by
  induction outcomes generalizing i now with
  | nil => rfl
  | cons outcome outcomes ih =>
      rw [List.length_cons] at hcount
      cases outcome with
      | ok a => rfl
      | error e =>
          rw [Backoff.follow, next?_backoffAfter, runFrom, nextBy]
          cases worthRepeating e with
          | false => rfl
          | true =>
              have hrepeats := lt_repeats_iff (p := p) (i := i) fun h => by
                have := hcount h
                omega
              rw [if_pos rfl, Bool.true_and]
              by_cases hallows : p.allows (i + 1) = true
              · rw [if_pos (hrepeats.2 hallows), if_pos hallows]
                simp only [Nat.add_sub_cancel]
                rw [ih fun h => by have := hcount h; omega]
              · rw [if_neg (hrepeats.not.2 hallows), if_neg hallows]

/-- **A policy is as good as its source of waits**, as long as a word can count the calls. -/
theorem follow_backoff (p : RetryPolicy) (times : Duration → Duration) (worthRepeating : Fault → Bool)
    (last : α) {outcomes : List (Except Fault α)}
    (hcount : p.maxCalls = none → outcomes.length < UInt64.size) :
    p.backoff.follow times worthRepeating last 0 outcomes =
      p.runBy (p.delayBy times) worthRepeating last outcomes :=
  follow_backoffAfter (i := 0) last (by simpa using hcount) 0

end RetryPolicy

end DeviceAccess
