import Mathlib.Data.List.Induction
import DeviceAccess.Proofs.Along
import DeviceAccess.Proofs.Ordered
import DeviceAccess.Reachability

/-!
# What the sources report

Each source has the addresses that it reported last (`Reachability.ofSource_run`), and the gateway's
addresses are those of all sources together (`Reachability.mem_all_iff`).  A report answers how the union
changed: what it adds was nobody's before, and what it removes is nobody's any more.  So the answers,
applied one after the other, give the union (`Reachability.applyTo_run`).
-/

namespace DeviceAccess

/-- The set after a change. -/
def ReachabilityChange.applyTo (c : ReachabilityChange) (s : OrderedSet HostAddress) :
    OrderedSet HostAddress :=
  (s.diff c.removed).union c.added

namespace Reachability

variable {r : Reachability} {source other : String} {a : HostAddress}

/-! ### One report -/

/-- A source has the addresses that it reported last. -/
theorem ofSource_record (r : Reachability) (source : String)
    (addresses : List HostAddress) :
    (r.record source addresses).1.ofSource source = OrderedSet.ofList addresses := by
  show (r.replace source addresses).ofSource source = _
  unfold replace ofSource
  simp only
  split
  · next hempty =>
      rw [OrderedMap.get?_erase, if_pos rfl]
      refine OrderedSet.ext_mem fun a => ?_
      unfold OrderedSet.isEmpty at hempty
      have hnone : a ∉ OrderedSet.ofList addresses := by
        rw [OrderedSet.mem_def, List.isEmpty_iff.1 hempty]
        exact List.not_mem_nil
      exact iff_of_false OrderedSet.not_mem_empty hnone
  · rw [OrderedMap.get?_insert, if_pos rfl]
    rfl

/-- A report is no matter of other sources. -/
theorem ofSource_record_of_ne (r : Reachability) (addresses : List HostAddress)
    (h : source ≠ other) : (r.record source addresses).1.ofSource other = r.ofSource other := by
  show (r.replace source addresses).ofSource other = _
  unfold replace ofSource
  simp only
  split
  · rw [OrderedMap.get?_erase, if_neg h]
  · rw [OrderedMap.get?_insert, if_neg h]

/-- The union has the addresses of all sources. -/
theorem mem_all_iff : a ∈ r.all ↔ ∃ source, a ∈ r.ofSource source := by
  have hunion (sets : List (OrderedSet HostAddress)) (s : OrderedSet HostAddress) :
      a ∈ sets.foldl OrderedSet.union s ↔ a ∈ s ∨ ∃ t ∈ sets, a ∈ t := by
    induction sets generalizing s with
    | nil => simp
    | cons t sets ih =>
        rw [List.foldl_cons, ih, OrderedSet.mem_union, List.exists_mem_cons_iff, or_assoc]
  unfold all ofSource
  rw [hunion]
  constructor
  · rintro (h | ⟨s, hs, ha⟩)
    · exact absurd h OrderedSet.not_mem_empty
    · obtain ⟨source, hsource⟩ := OrderedMap.mem_values.1 hs
      refine ⟨source, ?_⟩
      rwa [OrderedMap.get?_eq_some_iff.2 hsource]
  · rintro ⟨source, ha⟩
    right
    cases hs : r.bySource.get? source with
    | none =>
        rw [hs] at ha
        exact absurd ha OrderedSet.not_mem_empty
    | some s =>
        rw [hs] at ha
        exact ⟨s, OrderedMap.mem_values.2 ⟨source, OrderedMap.get?_eq_some_iff.1 hs⟩, ha⟩

/-- A report leaves the union as it was exactly if nothing was added and nothing removed. -/
theorem isEmpty_record_iff (r : Reachability) (source : String)
    (addresses : List HostAddress) :
    (r.record source addresses).2.isEmpty = true ↔ (r.record source addresses).1.all = r.all := by
  have hdiff : ∀ s t : OrderedSet HostAddress, (s.diff t).isEmpty = true ↔ ∀ a ∈ s, a ∈ t := by
    intro s t
    unfold OrderedSet.isEmpty
    rw [List.isEmpty_iff, List.eq_nil_iff_forall_not_mem]
    refine forall_congr' fun a => ?_
    rw [← OrderedSet.mem_def, OrderedSet.mem_diff, not_and_not_right]
  unfold ReachabilityChange.isEmpty
  rw [Bool.and_eq_true]
  unfold record
  simp only
  rw [hdiff, hdiff]
  constructor
  · rintro ⟨hadded, hremoved⟩
    exact OrderedSet.ext_mem fun a => ⟨hadded a, hremoved a⟩
  · intro h
    rw [h]
    exact ⟨fun _ => id, fun _ => id⟩

/-- The union after a report is the union before it with the change applied. -/
theorem applyTo_record (r : Reachability) (source : String) (addresses : List HostAddress) :
    (r.record source addresses).2.applyTo r.all = (r.record source addresses).1.all := by
  refine OrderedSet.ext_mem fun a => ?_
  unfold record ReachabilityChange.applyTo
  simp only [OrderedSet.mem_union, OrderedSet.mem_diff]
  tauto

/-! ### Reports one after the other -/

/-- A source and the addresses that it has from now on. -/
structure Report where
  source : String
  addresses : List HostAddress

/-- The addresses that a source reported last; none if it never did. -/
def lastReport (reports : List Report) (source : String) : List HostAddress :=
  match reports.reverse.find? fun report => report.source = source with
  | some report => report.addresses
  | none => []

theorem lastReport_concat (reports : List Report) (report : Report) (source : String) :
    lastReport (reports ++ [report]) source =
      if report.source = source then report.addresses else lastReport reports source := by
  unfold lastReport
  rw [List.reverse_append, List.reverse_singleton, List.singleton_append, List.find?_cons]
  by_cases h : report.source = source
  · simp [h]
  · simp [h]

/-- The union with a report taken in, and how it changed. -/
def take (r : Reachability) (report : Report) : Reachability × ReachabilityChange :=
  r.record report.source report.addresses

/-- After a run of reports each source has the addresses that it reported last. -/
theorem ofSource_run (reports : List Report) (source : String) :
    (runOps take empty reports).1.ofSource source = OrderedSet.ofList (lastReport reports source) := by
  induction reports using List.reverseRecOn with
  | nil => rfl
  | append_singleton reports report ih =>
      rw [runOps_concat, lastReport_concat]
      split
      · next h =>
          subst h
          exact ofSource_record _ _ _
      · next h => exact (ofSource_record_of_ne _ _ h).trans ih

/-- The changes that a run of reports answers give the union, applied to nothing one after the other. -/
theorem applyTo_run (reports : List Report) :
    (runOps take empty reports).2.foldl (fun s change => change.applyTo s) ∅ =
      (runOps take empty reports).1.all := by
  induction reports using List.reverseRecOn with
  | nil => rfl
  | append_singleton reports report ih =>
      rw [runOps_concat, List.foldl_append, ih]
      exact applyTo_record _ _ _

/-- **The changes add up to the union.**  After any reports, each source has the addresses that it
reported last, the union has the addresses of all sources, and the changes that were answered give it
when they are applied to nothing, one after the other.  The change that the next report answers is the
difference between the unions before and after it; the other sources keep their addresses, and the
union keeps what one of them claims. -/
theorem all_run (reports : List Report) (report : Report) :
    let before := runOps take empty reports
    let after := before.1.take report
    (∀ source, before.1.ofSource source = OrderedSet.ofList (lastReport reports source)) ∧
      (∀ a, a ∈ before.1.all ↔ ∃ source, a ∈ lastReport reports source) ∧
      before.2.foldl (fun s change => change.applyTo s) ∅ = before.1.all ∧
      (∀ a, a ∈ after.2.added ↔ a ∈ after.1.all ∧ a ∉ before.1.all) ∧
      (∀ a, a ∈ after.2.removed ↔ a ∈ before.1.all ∧ a ∉ after.1.all) ∧
      ∀ other, report.source ≠ other → after.1.ofSource other = before.1.ofSource other ∧
        ∀ a ∈ lastReport reports other, a ∈ after.1.all ∧ a ∉ after.2.removed := by
  intro before after
  have hsources := ofSource_run reports
  have hremoved (a : HostAddress) : a ∈ after.2.removed ↔ a ∈ before.1.all ∧ a ∉ after.1.all :=
    OrderedSet.mem_diff
  refine ⟨hsources, fun a => ?_, applyTo_run reports, fun a => OrderedSet.mem_diff, hremoved,
    fun other hne => ?_⟩
  · rw [mem_all_iff]
    refine exists_congr fun source => ?_
    rw [hsources, OrderedSet.mem_ofList]
  · have hother := ofSource_record_of_ne before.1 report.addresses hne
    refine ⟨hother, fun a ha => ?_⟩
    have hall : a ∈ after.1.all := by
      refine mem_all_iff.2 ⟨other, ?_⟩
      rw [show after.1.ofSource other = _ from hother, hsources, OrderedSet.mem_ofList]
      exact ha
    exact ⟨hall, fun h => ((hremoved a).1 h).2 hall⟩

end Reachability

end DeviceAccess
