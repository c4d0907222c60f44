/-!
# Runs

A run takes events one after the other; `runOps` collects what the steps answer.  `Along` is a condition
on every event of a run, in the state that the event finds; what a step keeps under the condition a run
keeps (`Along.foldl`).
-/

namespace DeviceAccess

/-! ### Answers of a run -/

/-- Operations one after the other: the state after them and all their answers. -/
def runOps {α ι ω : Type} (step : α → ι → α × ω) (a : α) : List ι → α × List ω
  | [] => (a, [])
  | op :: ops =>
    let (a, answer) := step a op
    let (a, answers) := runOps step a ops
    (a, answer :: answers)

theorem runOps_cons {α ι ω : Type} (step : α → ι → α × ω) (a : α) (op : ι) (ops : List ι) :
    runOps step a (op :: ops) =
      ((runOps step (step a op).1 ops).1, (step a op).2 :: (runOps step (step a op).1 ops).2) :=
  rfl

theorem runOps_concat {α ι ω : Type} (step : α → ι → α × ω) (a : α) (ops : List ι) (op : ι) :
    runOps step a (ops ++ [op]) =
      ((step (runOps step a ops).1 op).1,
        (runOps step a ops).2 ++ [(step (runOps step a ops).1 op).2]) := by
  induction ops generalizing a with
  | nil => rfl
  | cons op' ops ih => rw [List.cons_append, runOps_cons, runOps_cons, ih, List.cons_append]

/-! ### Conditions along a run -/

variable {σ ε : Type} (step : σ → ε → σ) (p : σ → ε → Prop)

/-- Every event of a run meets a condition in the state that it finds. -/
def Along (s : σ) : List ε → Prop
  | [] => True
  | event :: events => p s event ∧ Along (step s event) events

instance decidableAlong [∀ s event, Decidable (p s event)] :
    (s : σ) → (events : List ε) → Decidable (Along step p s events)
  | _, [] => inferInstanceAs (Decidable True)
  | s, event :: events =>
    let _ := decidableAlong (step s event) events
    inferInstanceAs (Decidable (p s event ∧ Along step p (step s event) events))

variable {step p} {s : σ} {events more : List ε}

theorem along_append :
    Along step p s (events ++ more) ↔
      Along step p s events ∧ Along step p (events.foldl step s) more := by
  induction events generalizing s with
  | nil => exact (and_iff_right trivial).symm
  | cons event events ih =>
      show p s event ∧ Along step p (step s event) (events ++ more) ↔
        (p s event ∧ Along step p (step s event) events) ∧ _
      rw [ih, and_assoc]
      rfl

/-- A condition along a run is a condition on every event in the state after those before it. -/
theorem along_iff_forall_first :
    Along step p s events ↔
      ∀ first event, first ++ [event] <+: events → p (first.foldl step s) event := by
  constructor
  · rintro h first event ⟨more, rfl⟩
    rw [List.append_assoc] at h
    exact (along_append.1 h).2.1
  · intro h
    induction events generalizing s with
    | nil => exact trivial
    | cons event events ih =>
        exact ⟨h [] event ⟨events, rfl⟩, ih fun first event' ⟨more, hmore⟩ =>
          h (event :: first) event' ⟨more, congrArg (event :: ·) hmore⟩⟩

/-- What a step keeps under the condition is kept by a run. -/
theorem Along.foldl (inv : σ → Prop) (hstep : ∀ s event, inv s → p s event → inv (step s event))
    (h : Along step p s events) (hs : inv s) : inv (events.foldl step s) := by
  induction events generalizing s with
  | nil => exact hs
  | cons event events ih => exact ih h.2 (hstep s event hs h.1)

end DeviceAccess
