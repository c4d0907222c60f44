import DeviceAccess.Deployment.Calls
import DeviceAccess.Proofs.Duration
import DeviceAccess.Proofs.Retry

/-!
# Calls that are repeated while somebody waits

A call of a deployment may change the deployment, and so may the background tasks that go on during the
wait after it.  If every call were repeated, each would find what the calls and waits before it left
(`Deployment.beforeCall`), and this fixes all answers (`Deployment.answer`).  The calls that are made are
those up to the last one among these answers (`Deployment.repeatCall_of_isLastCall`).

Material for an authority is asked for three times at most, since its policy is bounded, and once more
only if the provider could not be reached (`Deployment.repeats_run`).
-/

namespace DeviceAccess

namespace Deployment

variable {α : Type}

section
variable (tk : Toolkit) (policy : RetryPolicy) (call : Call α) (faults : StagedFaults) (d : Deployment)

/-- The deployment and the staged failures that call `i + 1` finds if the calls before it are all
repeated. -/
def beforeCall : Nat → Deployment × StagedFaults
  | 0 => (d, faults)
  | i + 1 =>
    let (d, faults, _) := call (beforeCall i).1 (beforeCall i).2
    (d.wait tk (policy.delay i).millis, faults)

/-- The deployment that call `n` leaves, the first being call 1. -/
def afterCall (n : Nat) : Deployment :=
  (call (beforeCall tk policy call faults d (n - 1)).1
    (beforeCall tk policy call faults d (n - 1)).2).1

/-- The answer to call `n`. -/
def answer (n : Nat) : Except Fault α :=
  (call (beforeCall tk policy call faults d (n - 1)).1
    (beforeCall tk policy call faults d (n - 1)).2).2.2

end

variable {tk : Toolkit} {policy : RetryPolicy} {worthRepeating : Fault → Bool} {call : Call α}
  {faults : StagedFaults} {d : Deployment}

/-- The calls from call `i + 1` up to the last one, `k` calls later. -/
theorem repeatCall_of_ends {i k limit : Nat} (hlimit : k ≤ limit)
    (hends : policy.Ends worthRepeating (answer tk policy call faults d) (i + k + 1))
    (hgoesOn : ∀ m, 1 ≤ m → m < i + k + 1 →
      ¬policy.Ends worthRepeating (answer tk policy call faults d) m) :
    let before := beforeCall tk policy call faults d i
    before.1.repeatCall tk policy worthRepeating none call limit i before.2 =
      (afterCall tk policy call faults d (i + k + 1), answer tk policy call faults d (i + k + 1)) := by
  induction k generalizing i limit with
  | zero =>
      have hnext : policy.next worthRepeating (i + 0 + 1)
          (answer tk policy call faults d (i + 0 + 1)) = none := RetryPolicy.nextBy_of_ends hends
      intro before
      rw [repeatCall]
      simp only [show (call before.1 before.2).2.2 = answer tk policy call faults d (i + 0 + 1) from rfl,
        Nat.add_zero] at hnext ⊢
      rw [hnext]
      cases limit with
      | zero => rfl
      | succ limit => rfl
  | succ k ih =>
      obtain ⟨limit, rfl⟩ : ∃ l, limit = l + 1 := ⟨limit - 1, by omega⟩
      have hindex : i + 1 + k + 1 = i + (k + 1) + 1 := by omega
      have hlater := ih (i := i + 1) (Nat.le_of_succ_le_succ hlimit) (hindex ▸ hends)
        (hindex ▸ hgoesOn)
      rw [hindex] at hlater
      have hnext : policy.next worthRepeating (i + 1) (answer tk policy call faults d (i + 1)) =
          some (policy.delay i) :=
        RetryPolicy.nextBy_of_forall_not_ends (Nat.succ_pos i) fun m hm hle => hgoesOn m hm (by omega)
      intro before
      rw [repeatCall]
      simp only [show (call before.1 before.2).2.2 = answer tk policy call faults d (i + 1) from rfl]
      rw [hnext]
      exact hlater

/-- **A call is repeated up to the last one**: what it leaves is what the last call leaves, and what it
answers is the answer to the last call. -/
theorem repeatCall_of_isLastCall {n limit : Nat}
    (h : policy.IsLastCall worthRepeating (answer tk policy call faults d) n) (hlimit : n ≤ limit + 1) :
    d.repeatCall tk policy worthRepeating none call limit 0 faults =
      (afterCall tk policy call faults d n, answer tk policy call faults d n) := by
  obtain ⟨k, rfl⟩ : ∃ k, n = 0 + k + 1 := ⟨n - 1, by have := h.pos; omega⟩
  exact repeatCall_of_ends (i := 0) (by omega) h.ends h.goesOn

/-! ### Importing an authority -/

/-- Imports an authority whose material comes from a provider. -/
def importFrom (tk : Toolkit) (provider : Call KeyMaterial) (d : Deployment) (faults : StagedFaults) :
    Deployment × Except Fault Unit :=
  match d.repeatCall tk importPolicy isUnavailable none provider 3 0 faults with
  | (d, .error e) => (d, .error e)
  | (d, .ok material) => d.adopt (d.gateway.importAuthority tk d.calendar material)

theorem isUnavailable_iff {e : Fault} :
    isUnavailable e = true ↔ ∃ reason, e = .serviceUnavailable reason := by
  cases e <;> simp [isUnavailable]

/-- A provider is asked three times at most, and again only if it was unavailable. -/
theorem exists_isLastCall_importPolicy (answers : Nat → Except Fault α) :
    ∃ n ≤ 3, importPolicy.IsLastCall isUnavailable answers n ∧
      ∀ m, 1 ≤ m → m < n → ∃ reason, answers m = .error (.serviceUnavailable reason) := by
  obtain ⟨n, hle, hlast⟩ := RetryPolicy.exists_isLastCall (p := importPolicy) rfl isUnavailable answers
  refine ⟨n, hle, hlast, fun m hm hlt => ?_⟩
  obtain ⟨⟨e, he, hrepeat⟩, -⟩ := RetryPolicy.not_ends_iff.1 (hlast.goesOn m hm hlt)
  obtain ⟨reason, rfl⟩ := isUnavailable_iff.1 hrepeat
  exact ⟨reason, he⟩

/-- **A call is made until one of its outcomes ends the series**, however waits are multiplied; a policy
itself multiplies them by its factor (`RetryPolicy.delay`, `RetryPolicy.run`).

* If call `n` is the first that succeeds, or fails with a fault that is not worth repeating, or is the
  last that the policy allows, then `n` calls are made and the outcome of call `n` is the result,
  whatever outcomes would come later.
* Without such a call the policy has no bound, and any number of calls is followed by another.
* The first wait is the initial delay, and no later wait is above the greatest delay.
* Waits never get shorter if the initial delay is not above the greatest one, and no wait below that is
  multiplied to a shorter one.  This is so for every multiplier of 32 bits that is two units of the last
  place above one, or more.
* The source of waits that the policy stands for gives the same series, as long as a word of 64 bits can
  count the calls.
* To import an authority, its provider is asked three times at most, and again only if it was
  unavailable.  The import fails as the last answer says, or goes on with the material of this
  answer. -/
theorem repeats_run (p : RetryPolicy) (times : Duration → Duration) (worthRepeating : Fault → Bool)
    (outcomes : Nat → Except Fault α) (tk : Toolkit) (d : Deployment) (faults : StagedFaults) :
    let waits := p.delayBy times
    (∀ n, p.IsLastCall worthRepeating outcomes n → ∀ last later,
      p.runBy waits worthRepeating last (RetryPolicy.firstOutcomes outcomes n ++ later) =
        ⟨(List.range n).map (RetryPolicy.callTime waits), outcomes n⟩) ∧
    ((∀ n, ¬p.IsLastCall worthRepeating outcomes n) → p.maxCalls = none ∧ ∀ n last,
      p.runBy waits worthRepeating last (RetryPolicy.firstOutcomes outcomes n) =
        ⟨(List.range (n + 1)).map (RetryPolicy.callTime waits), .ok last⟩) ∧
    (waits 0 = p.initialDelay ∧ ∀ i, waits (i + 1) ≤ p.maxDelay) ∧
    (p.initialDelay ≤ p.maxDelay →
      ((∀ delay < p.maxDelay, delay ≤ times delay) → ∀ i, waits i ≤ waits (i + 1)) ∧
      ∀ multiplier : Float32, Factor.value ⟨2 ^ 22 + 1, 2 ^ 22⟩ ≤ multiplier → ∀ i,
        p.delayBy (Duration.times multiplier) i ≤ p.delayBy (Duration.times multiplier) (i + 1)) ∧
    (∀ last (l : List (Except Fault α)), (p.maxCalls = none → l.length < UInt64.size) →
      p.backoff.follow times worthRepeating last 0 l = p.runBy waits worthRepeating last l) ∧
    (∀ provider : Call KeyMaterial,
      let answers := answer tk importPolicy provider faults d
      let after := afterCall tk importPolicy provider faults d
      ∃ n ≤ 3, importPolicy.IsLastCall isUnavailable answers n ∧
        (∀ m, 1 ≤ m → m < n → ∃ reason, answers m = .error (.serviceUnavailable reason)) ∧
        (∀ e, answers n = .error e → d.importFrom tk provider faults = (after n, .error e)) ∧
        ∀ material, answers n = .ok material → d.importFrom tk provider faults =
          (after n).adopt ((after n).gateway.importAuthority tk (after n).calendar material)) ∧
    ∀ uris, d.importAuthority tk faults uris = d.importFrom tk (materialCall uris) faults := by
  intro waits
  refine ⟨fun n h last later => RetryPolicy.runBy_of_isLastCall h last later, fun h => ?_,
    ⟨rfl, p.delayBy_succ_le times⟩, fun hinitial => ⟨?_, fun multiplier hleast => ?_⟩,
    fun last l hl => RetryPolicy.follow_backoff p times worthRepeating last hl, fun provider => ?_,
    fun uris => rfl⟩
  · constructor
    · cases hbound : p.maxCalls with
      | none => rfl
      | some b =>
          obtain ⟨n, -, hlast⟩ := RetryPolicy.exists_isLastCall hbound worthRepeating outcomes
          exact absurd hlast (h n)
    · intro n last
      exact RetryPolicy.runBy_of_forall_not_ends (RetryPolicy.forall_not_ends_of_not_isLastCall h)
        last n
  · exact RetryPolicy.delayBy_le_delayBy_succ hinitial
  · exact RetryPolicy.delayBy_le_delayBy_succ hinitial fun delay _ => delay.le_times hleast
  · intro answers after
    obtain ⟨n, hle, hlast, hearlier⟩ := exists_isLastCall_importPolicy answers
    have hcalls : d.repeatCall tk importPolicy isUnavailable none provider 3 0 faults =
        (after n, answers n) := repeatCall_of_isLastCall hlast (by omega)
    refine ⟨n, hle, hlast, hearlier, fun e he => ?_, fun material hmaterial => ?_⟩
    · unfold importFrom
      rw [hcalls, he]
    · unfold importFrom
      rw [hcalls, hmaterial]

/-- Outcomes of calls to somebody who is busy at first. -/
def busyTwice (n : Nat) : Except Fault Nat :=
  if n ≤ 2 then .error (.serviceUnavailable "busy") else .ok 7

/-- A provider that is busy when it is asked three times. -/
def busyFaults : StagedFaults :=
  ["first", "second", "third"].map fun reason => (.serviceUnavailable reason, false)

/-- Of five calls that are allowed, three are made; an import asks three times and reports what the
provider said at last. -/
theorem repeats_run_busyTwice :
    let p := RetryPolicy.bounded 5 (.ofMillis 1000)
    let d := Deployment.new (.new ⟨.empty, .ofSeed []⟩ ⟨"/work"⟩ .standard) .empty 0
    p.run isUnavailable 0 (RetryPolicy.firstOutcomes busyTwice 3) = ⟨[0, 1000, 3000], .ok 7⟩ ∧
      (∀ i, p.delay i ≤ p.delay (i + 1)) ∧
      p.backoff.follow (Duration.times p.factor.value) isUnavailable 0 0
        (RetryPolicy.firstOutcomes busyTwice 3) = ⟨[0, 1000, 3000], .ok 7⟩ ∧
      ∀ uris, (d.importAuthority .standard busyFaults uris).2 =
        .error (.serviceUnavailable "third") := by
  intro p d
  obtain ⟨hruns, -, -, hwaits, hfollow, himport, huris⟩ :=
    repeats_run p (Duration.times p.factor.value) isUnavailable busyTwice .standard d busyFaults
  have hlast : p.IsLastCall isUnavailable busyTwice 3 := by
    refine ⟨by decide, .inl ⟨7, rfl⟩, fun m hm hlt => RetryPolicy.not_ends_iff.2 ⟨?_, ?_⟩⟩
    · exact ⟨.serviceUnavailable "busy", if_pos (by omega), rfl⟩
    · show some 5 ≠ some m
      simp only [ne_eq, Option.some.injEq]
      omega
  have htimes : (List.range 3).map (RetryPolicy.callTime p.delay) = [0, 1000, 3000] := by
    decide +kernel
  have hrun := (hruns 3 hlast 0 []).trans (congrArg (RetryPolicy.Outcome.mk · _) htimes)
  rw [List.append_nil] at hrun
  refine ⟨hrun, (hwaits (by decide)).2 _ (by decide +kernel), (hfollow 0 _ nofun).trans hrun,
    fun uris => ?_⟩
  obtain ⟨n, hle, hends, -, herror, -⟩ := himport (materialCall uris)
  obtain rfl : n = 3 := by
    by_contra hne
    refine RetryPolicy.not_ends_iff.2 ⟨?_, ?_⟩ hends.ends
    · have hpos := hends.pos
      obtain rfl | rfl : n = 1 ∨ n = 2 := by omega
      · exact ⟨.serviceUnavailable "first", rfl, rfl⟩
      · exact ⟨.serviceUnavailable "second", rfl, rfl⟩
    · show some 3 ≠ some n
      simp only [ne_eq, Option.some.injEq]
      omega
  rw [huris, herror _ rfl]

/-- With the multiplier one a wait may get shorter, below the greatest delay, since it is rounded to 24
digits while it is multiplied. -/
theorem delay_lt_of_multiplier_one :
    let p : RetryPolicy := ⟨some 3, .ofMillis 32768001, .ofMillis 65536000, ⟨1, 1⟩⟩
    p.initialDelay ≤ p.maxDelay ∧ 1 ≤ p.factor.value ∧ p.delay 1 < p.delay 0 ∧
      (p.run isUnavailable 0 (List.replicate 3 (.error (.serviceUnavailable "busy")))).callTimes =
        [0, 32768001, 65536001] := by
  decide +kernel

end Deployment

end DeviceAccess
