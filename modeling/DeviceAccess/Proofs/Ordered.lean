import Mathlib.Data.List.Nodup
import DeviceAccess.Ordered

/-!
# Look-up in ordered maps

A map binds every key at most once, so its listing and its look-up say the same
(`OrderedMap.get?_eq_some_iff`).  From this the other operations are described through look-up,
and those that the listing shows directly (a greatest key, the least key) through the listing.
-/

namespace DeviceAccess

/-- Without repetitions every element stands once. -/
theorem nodup_eraseDups {α : Type} [DecidableEq α] (xs : List α) : xs.eraseDups.Nodup := by
  cases xs with
  | nil => simp
  | cons x xs =>
      rw [List.eraseDups_cons, List.nodup_cons]
      exact ⟨by simp, nodup_eraseDups (xs.filter fun y => !y == x)⟩
termination_by xs.length
decreasing_by
  have hle := List.length_filter_le (fun y => !y == x) xs
  rw [List.length_cons]
  omega

variable {κ α : Type} [Ord κ]

theorem Increasing.nodup [Std.LawfulEqOrd κ] {xs : List κ} (h : Increasing xs) : xs.Nodup := by
  refine h.imp ?_
  rintro a b hab rfl
  rw [Std.ReflOrd.compare_self] at hab
  cases hab

namespace OrderedMap

theorem mem_values {m : OrderedMap κ α} {v : α} : v ∈ m.values ↔ ∃ k, (k, v) ∈ m.entries := by
  simp [values]

theorem eq_iff_entries_eq {m n : OrderedMap κ α} : m = n ↔ m.entries = n.entries := by
  cases m
  cases n
  simp

theorem popFirst?_eq_none_iff {m : OrderedMap κ α} : m.popFirst? = none ↔ m.entries = [] := by
  unfold popFirst?
  split
  · next h => simp [h]
  · next e es h => simp [h]

theorem popFirst?_eq_some_iff {m rest : OrderedMap κ α} {e : κ × α} :
    m.popFirst? = some (e, rest) ↔ m.entries = e :: rest.entries := by
  unfold popFirst?
  split
  · next h => simp [h]
  · next e' es h =>
      rw [Option.some.injEq, Prod.mk.injEq, eq_iff_entries_eq]
      simp only [h, List.cons.injEq]

section lookup
variable [DecidableEq κ]

@[simp] theorem get?_empty (k : κ) : (∅ : OrderedMap κ α).get? k = none := rfl

theorem entries_erase (m : OrderedMap κ α) (k : κ) :
    (m.erase k).entries = m.entries.filter fun e => e.1 ≠ k := rfl

omit [Ord κ] in
/-- Look-up in a list of bindings with distinct keys finds exactly the listed bindings. -/
theorem find?_eq_some_iff_mem {l : List (κ × α)} (h : (l.map (·.1)).Nodup) {k : κ} {v : α} :
    ((l.find? fun e => e.1 = k).map (·.2)) = some v ↔ (k, v) ∈ l := by
  induction l with
  | nil => simp
  | cons e es ih =>
      rw [List.map_cons, List.nodup_cons] at h
      obtain ⟨hnot, hnodup⟩ := h
      by_cases he : e.1 = k
      · have hes : (k, v) ∉ es := fun hmem => hnot (List.mem_map.2 ⟨_, hmem, he.symm⟩)
        rw [List.find?_cons_of_pos (by simpa using he), List.mem_cons]
        simp only [Option.map_some, Option.some.injEq, hes, or_false]
        constructor
        · rintro rfl
          exact Prod.ext he.symm rfl
        · rintro rfl
          rfl
      · have hne : (k, v) ≠ e := by rintro rfl; exact he rfl
        rw [List.find?_cons_of_neg (by simpa using he), ih hnodup, List.mem_cons]
        simp [hne]

variable [Std.LawfulEqOrd κ]

/-- Look-up and listing agree. -/
theorem get?_eq_some_iff {m : OrderedMap κ α} {k : κ} {v : α} :
    m.get? k = some v ↔ (k, v) ∈ m.entries :=
  find?_eq_some_iff_mem m.increasing.nodup

theorem mem_keys_iff {m : OrderedMap κ α} {k : κ} : k ∈ m.keys ↔ ∃ v, m.get? k = some v := by
  simp [keys, get?_eq_some_iff]

/-- Without its least binding a map is what is left of it. -/
theorem erase_of_popFirst? {m rest : OrderedMap κ α} {e : κ × α}
    (h : m.popFirst? = some (e, rest)) : m.erase e.1 = rest := by
  have hm := m.increasing.nodup
  rw [popFirst?_eq_some_iff] at h
  rw [h, List.map_cons, List.nodup_cons] at hm
  rw [eq_iff_entries_eq, entries_erase, h, List.filter_cons_of_neg (by simp)]
  refine List.filter_eq_self.2 fun e' he' => ?_
  have hne : e'.1 ≠ e.1 := fun heq => hm.1 (List.mem_map.2 ⟨e', he', heq⟩)
  simpa using hne

theorem get?_erase (m : OrderedMap κ α) (k k' : κ) :
    (m.erase k).get? k' = if k = k' then none else m.get? k' := by
  refine Option.ext fun v => ?_
  rw [get?_eq_some_iff, entries_erase, List.mem_filter]
  by_cases h : k = k'
  · simp [h]
  · have h' : k' ≠ k := fun e => h e.symm
    rw [if_neg h, get?_eq_some_iff]
    simp [h']

end lookup

variable [Std.TransOrd κ] [Std.LawfulEqOrd κ]

/-- Two maps with the same bindings are equal. -/
theorem ext_get? [DecidableEq κ] {m n : OrderedMap κ α} (h : ∀ k, m.get? k = n.get? k) :
    m = n := by
  have hmem : ∀ e, e ∈ m.entries ↔ e ∈ n.entries := by
    rintro ⟨k, v⟩
    rw [← get?_eq_some_iff, ← get?_eq_some_iff, h]
  have hm := m.increasing
  have hn := n.increasing
  unfold Increasing at hm hn
  rw [List.pairwise_map] at hm hn
  have hperm : m.entries.Perm n.entries :=
    (List.perm_ext_iff_of_nodup (List.Nodup.of_map _ m.increasing.nodup)
      (List.Nodup.of_map _ n.increasing.nodup)).2 hmem
  rw [eq_iff_entries_eq]
  refine List.Perm.eq_of_pairwise ?_ hm hn hperm
  intro a b _ _ hab hba
  have haa := Std.TransCmp.lt_trans hab hba
  rw [Std.ReflOrd.compare_self] at haa
  cases haa

theorem insert_erase_self [DecidableEq κ] (m : OrderedMap κ α) (k : κ) (v : α) :
    (m.erase k).insert k v = m.insert k v := by
  refine ext_get? fun k' => ?_
  rw [get?_insert, get?_insert, get?_erase]
  split
  · rfl
  · rfl

/-- A binding of a key greater than all others is listed last. -/
theorem entries_insert_of_forall_lt {m : OrderedMap κ α} {k : κ} (v : α)
    (h : ∀ e ∈ m.entries, compare e.1 k = .lt) :
    (m.insert k v).entries = m.entries ++ [(k, v)] := by
  show place k v m.entries = m.entries ++ [(k, v)]
  generalize m.entries = l at h
  induction l with
  | nil => rfl
  | cons e es ih =>
      have hgt : compare k e.1 = .gt := Std.OrientedCmp.gt_iff_lt.2 (h e List.mem_cons_self)
      unfold place
      rw [hgt, ih fun e' he' => h e' (List.mem_cons_of_mem _ he')]
      rfl

/-! ### Collected bindings -/

theorem get?_foldl_insert [DecidableEq κ] {l : List (κ × α)} {m : OrderedMap κ α}
    (hl : (l.map (·.1)).Nodup) {k : κ} {v : α} :
    (l.foldl (fun m e => m.insert e.1 e.2) m).get? k = some v ↔
      (k, v) ∈ l ∨ (k ∉ l.map (·.1) ∧ m.get? k = some v) := by
  induction l generalizing m with
  | nil => simp
  | cons e es ih =>
      rw [List.map_cons, List.nodup_cons] at hl
      obtain ⟨hnot, hnodup⟩ := hl
      rw [List.foldl_cons, ih hnodup, get?_insert, List.map_cons, List.mem_cons, List.mem_cons]
      by_cases he : e.1 = k
      · subst he
        have hes : (e.1, v) ∉ es := fun hmem => hnot (List.mem_map.2 ⟨_, hmem, rfl⟩)
        simp only [hes, hnot, if_true, Option.some.injEq, false_or, not_false_eq_true, true_and,
          or_false, not_true_eq_false, false_and]
        constructor
        · rintro rfl
          rfl
        · intro h
          rw [← h]
      · have hne : (k, v) ≠ e := by rintro rfl; exact he rfl
        have hne' : k ≠ e.1 := fun h => he h.symm
        simp only [hne, hne', if_neg he, false_or]

/-- A map collected from a list of bindings with distinct keys holds exactly these. -/
theorem mem_entries_ofList {l : List (κ × α)} (hl : (l.map (·.1)).Nodup) {e : κ × α} :
    e ∈ (ofList l).entries ↔ e ∈ l := by
  classical
  obtain ⟨k, v⟩ := e
  rw [← get?_eq_some_iff, ofList, get?_foldl_insert hl]
  simp

/-- Collecting the bindings of a map gives the map back. -/
theorem ofList_entries [DecidableEq κ] (m : OrderedMap κ α) : ofList m.entries = m := by
  refine ext_get? fun k => Option.ext fun v => ?_
  rw [get?_eq_some_iff, get?_eq_some_iff, mem_entries_ofList m.increasing.nodup]

end OrderedMap

end DeviceAccess
