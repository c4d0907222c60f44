/-!
# Ordered sets and maps

A set is the list of its elements in strictly increasing order, a map the list of its
bindings in strictly increasing order of their keys.  The order is part of the type, so
two sets with the same elements are equal (`OrderedSet.ext_mem`), and every listing of a
set or a map is canonical.  Keys that are strings are ordered by code point.

`OrderedSet.mem_insert`, `OrderedSet.mem_ofList` and `OrderedMap.get?_insert` describe the
operations through membership and look-up.
-/

namespace DeviceAccess

/-- Elements stand in strictly increasing order. -/
def Increasing {α : Type} [Ord α] (xs : List α) : Prop :=
  xs.Pairwise fun a b => compare a b = .lt

instance {α : Type} [Ord α] (xs : List α) : Decidable (Increasing xs) :=
  inferInstanceAs (Decidable (xs.Pairwise _))

/-- A finite set, listed in increasing order. -/
structure OrderedSet (α : Type) [Ord α] where
  toList : List α
  increasing : Increasing toList

namespace OrderedSet

variable {α : Type} [Ord α]

/-- The set without elements. -/
def empty : OrderedSet α := ⟨[], List.Pairwise.nil⟩

instance : EmptyCollection (OrderedSet α) := ⟨empty⟩
instance : Inhabited (OrderedSet α) := ⟨empty⟩
instance : Membership α (OrderedSet α) := ⟨fun s a => a ∈ s.toList⟩

instance [DecidableEq α] : DecidableEq (OrderedSet α) := fun s t =>
  decidable_of_iff (s.toList = t.toList) (by cases s; cases t; simp)

instance [DecidableEq α] (a : α) (s : OrderedSet α) : Decidable (a ∈ s) :=
  inferInstanceAs (Decidable (a ∈ s.toList))

theorem eq_of_toList_eq {s t : OrderedSet α} (h : s.toList = t.toList) : s = t := by
  cases s
  cases t
  cases h
  rfl

theorem mem_def {a : α} {s : OrderedSet α} : a ∈ s ↔ a ∈ s.toList := Iff.rfl

@[simp] theorem not_mem_empty {a : α} : ¬ a ∈ (∅ : OrderedSet α) := List.not_mem_nil

/-- Whether there is no element. -/
def isEmpty (s : OrderedSet α) : Bool := s.toList.isEmpty

/-- Number of elements. -/
def size (s : OrderedSet α) : Nat := s.toList.length

/-- Whether `a` is an element. -/
def contains [DecidableEq α] (s : OrderedSet α) (a : α) : Bool := decide (a ∈ s.toList)

/-! ### Insertion -/

/-- Puts `a` at its place in an increasing list; an element that is already there stays. -/
def place (a : α) : List α → List α
  | [] => [a]
  | b :: bs =>
    match compare a b with
    | .lt => a :: b :: bs
    | .eq => b :: bs
    | .gt => b :: place a bs

theorem mem_place [Std.LawfulEqOrd α] {a x : α} {l : List α} :
    x ∈ place a l ↔ x = a ∨ x ∈ l := by
  induction l with
  | nil => simp [place]
  | cons b bs ih =>
    unfold place
    split
    · simp
    · next h =>
      have e : a = b := Std.LawfulEqOrd.eq_of_compare h
      subst e
      simp
    · simp only [List.mem_cons, ih]
      constructor
      · rintro (h | h | h) <;> simp [h]
      · rintro (h | h | h) <;> simp [h]

theorem increasing_place [Std.TransOrd α] [Std.LawfulEqOrd α] {a : α} {l : List α}
    (h : Increasing l) : Increasing (place a l) := by
  induction l with
  | nil => simp [place, Increasing]
  | cons b bs ih =>
    have hb := List.pairwise_cons.1 h
    unfold place
    split
    · next hlt =>
      refine List.pairwise_cons.2 ⟨fun c hc => ?_, h⟩
      rcases List.mem_cons.1 hc with rfl | hc
      · exact hlt
      · exact Std.TransCmp.lt_trans hlt (hb.1 c hc)
    · exact h
    · next hgt =>
      refine List.pairwise_cons.2 ⟨fun c hc => ?_, ih hb.2⟩
      rcases mem_place.1 hc with rfl | hc
      · exact Std.OrientedCmp.gt_iff_lt.1 hgt
      · exact hb.1 c hc

variable [Std.TransOrd α] [Std.LawfulEqOrd α]

/-- Adds an element. -/
def insert (s : OrderedSet α) (a : α) : OrderedSet α :=
  ⟨place a s.toList, increasing_place s.increasing⟩

/-- The set of the elements of a list. -/
def ofList (l : List α) : OrderedSet α := l.foldl insert ∅

/-- All elements of either set. -/
def union (s t : OrderedSet α) : OrderedSet α := t.toList.foldl insert s

/-- The elements that satisfy `p`. -/
def filter (p : α → Bool) (s : OrderedSet α) : OrderedSet α :=
  ⟨s.toList.filter p, List.Pairwise.filter p s.increasing⟩

/-- The elements of `s` that are not in `t`. -/
def diff [DecidableEq α] (s t : OrderedSet α) : OrderedSet α := s.filter fun a => !t.contains a

/-- Removes an element. -/
def erase [DecidableEq α] (s : OrderedSet α) (a : α) : OrderedSet α := s.filter fun b => b ≠ a

@[simp] theorem mem_insert {a x : α} {s : OrderedSet α} : x ∈ s.insert a ↔ x = a ∨ x ∈ s :=
  mem_place

theorem mem_foldl_insert {x : α} {l : List α} {s : OrderedSet α} :
    x ∈ l.foldl insert s ↔ x ∈ s ∨ x ∈ l := by
  induction l generalizing s with
  | nil => simp
  | cons a l ih =>
    rw [List.foldl_cons, ih, mem_insert, List.mem_cons]
    constructor
    · rintro ((h | h) | h) <;> simp [h]
    · rintro (h | h | h) <;> simp [h]

@[simp] theorem mem_ofList {x : α} {l : List α} : x ∈ ofList l ↔ x ∈ l := by
  simp [ofList, mem_foldl_insert]

@[simp] theorem mem_union {x : α} {s t : OrderedSet α} : x ∈ s.union t ↔ x ∈ s ∨ x ∈ t :=
  mem_foldl_insert

omit [Std.TransOrd α] [Std.LawfulEqOrd α] in
@[simp] theorem mem_filter {x : α} {p : α → Bool} {s : OrderedSet α} :
    x ∈ s.filter p ↔ x ∈ s ∧ p x = true :=
  List.mem_filter

omit [Std.TransOrd α] [Std.LawfulEqOrd α] in
@[simp] theorem mem_diff [DecidableEq α] {x : α} {s t : OrderedSet α} :
    x ∈ s.diff t ↔ x ∈ s ∧ ¬ x ∈ t := by
  rw [diff, mem_filter]
  simp [contains, mem_def]

/-! ### Sets are determined by their elements -/

private theorem eq_of_mem_iff {l m : List α} (hl : Increasing l) (hm : Increasing m)
    (h : ∀ a, a ∈ l ↔ a ∈ m) : l = m := by
  have irrefl : ∀ a : α, compare a a ≠ .lt := fun a e => by
    rw [Std.ReflOrd.compare_self] at e; exact nomatch e
  have asymm : ∀ {a b : α}, compare a b = .lt → compare b a ≠ .lt := fun h k =>
    irrefl _ (Std.TransCmp.lt_trans h k)
  induction l generalizing m with
  | nil =>
    cases m with
    | nil => rfl
    | cons b bs => exact absurd ((h b).2 (by simp)) (by simp)
  | cons a as ih =>
    cases m with
    | nil => exact absurd ((h a).1 (by simp)) (by simp)
    | cons b bs =>
      have ha := List.pairwise_cons.1 hl
      have hb := List.pairwise_cons.1 hm
      have e : a = b := by
        rcases List.mem_cons.1 ((h a).1 (by simp)) with e | ea
        · exact e
        · rcases List.mem_cons.1 ((h b).2 (by simp)) with e | eb
          · exact e.symm
          · exact absurd (ha.1 b eb) (asymm (hb.1 a ea))
      subst e
      congr 1
      refine ih ha.2 hb.2 fun c => ⟨fun hc => ?_, fun hc => ?_⟩
      · rcases List.mem_cons.1 ((h c).1 (List.mem_cons_of_mem _ hc)) with e | hc'
        · subst e; exact absurd (ha.1 c hc) (irrefl c)
        · exact hc'
      · rcases List.mem_cons.1 ((h c).2 (List.mem_cons_of_mem _ hc)) with e | hc'
        · subst e; exact absurd (hb.1 c hc) (irrefl c)
        · exact hc'

/-- Two sets with the same elements are equal. -/
theorem ext_mem {s t : OrderedSet α} (h : ∀ a, a ∈ s ↔ a ∈ t) : s = t := by
  cases s with
  | mk l hl =>
    cases t with
    | mk m hm =>
      have e : l = m := eq_of_mem_iff hl hm h
      subst e
      rfl

/-- Listing a set and collecting the list gives the set back. -/
theorem ofList_toList (s : OrderedSet α) : ofList s.toList = s :=
  ext_mem fun _ => mem_ofList

end OrderedSet

/-- A finite map, listed in increasing order of its keys. -/
structure OrderedMap (κ α : Type) [Ord κ] where
  entries : List (κ × α)
  increasing : Increasing (entries.map (·.1))

namespace OrderedMap

variable {κ α β : Type} [Ord κ]

/-- The map without bindings. -/
def empty : OrderedMap κ α := ⟨[], List.Pairwise.nil⟩

instance : EmptyCollection (OrderedMap κ α) := ⟨empty⟩
instance : Inhabited (OrderedMap κ α) := ⟨empty⟩

instance [DecidableEq κ] [DecidableEq α] : DecidableEq (OrderedMap κ α) := fun s t =>
  decidable_of_iff (s.entries = t.entries) (by cases s; cases t; simp)

/-- Whether there is no binding. -/
def isEmpty (m : OrderedMap κ α) : Bool := m.entries.isEmpty

/-- Number of bindings. -/
def size (m : OrderedMap κ α) : Nat := m.entries.length

/-- The keys in increasing order. -/
def keys (m : OrderedMap κ α) : List κ := m.entries.map (·.1)

/-- The values in the order of their keys. -/
def values (m : OrderedMap κ α) : List α := m.entries.map (·.2)

/-- The value bound to `k`. -/
def get? [DecidableEq κ] (m : OrderedMap κ α) (k : κ) : Option α :=
  (m.entries.find? fun e => e.1 = k).map (·.2)

/-- Whether `k` is bound. -/
def contains [DecidableEq κ] (m : OrderedMap κ α) (k : κ) : Bool := (m.get? k).isSome

/-- The bindings that satisfy `p`. -/
def filter (p : κ → α → Bool) (m : OrderedMap κ α) : OrderedMap κ α :=
  ⟨m.entries.filter fun e => p e.1 e.2, by
    have h := m.increasing
    unfold Increasing at h ⊢
    rw [List.pairwise_map] at h ⊢
    exact h.filter _⟩

/-- Removes the binding of `k`. -/
def erase [DecidableEq κ] (m : OrderedMap κ α) (k : κ) : OrderedMap κ α :=
  m.filter fun k' _ => k' ≠ k

/-- The binding with the least key and the map of the others. -/
def popFirst? (m : OrderedMap κ α) : Option ((κ × α) × OrderedMap κ α) :=
  match h : m.entries with
  | [] => none
  | e :: es => some (e, ⟨es, by
      have hm := m.increasing
      rw [h] at hm
      exact (List.pairwise_cons.1 hm).2⟩)

theorem size_of_popFirst? {m rest : OrderedMap κ α} {e : κ × α}
    (h : m.popFirst? = some (e, rest)) : m.size = rest.size + 1 := by
  unfold popFirst? at h
  split at h
  · exact nomatch h
  · next e' es he =>
    simp only [Option.some.injEq, Prod.mk.injEq] at h
    obtain ⟨_, rfl⟩ := h
    simp [size, he]

/-- Puts a binding at its place in an increasing list, over an earlier one of the same key. -/
def place (k : κ) (v : α) : List (κ × α) → List (κ × α)
  | [] => [(k, v)]
  | e :: es =>
    match compare k e.1 with
    | .lt => (k, v) :: e :: es
    | .eq => (k, v) :: es
    | .gt => e :: place k v es

theorem map_fst_place [Std.LawfulEqOrd κ] (k : κ) (v : α) (l : List (κ × α)) :
    (place k v l).map (·.1) = OrderedSet.place k (l.map (·.1)) := by
  induction l with
  | nil => rfl
  | cons e es ih =>
    unfold place
    simp only [List.map_cons, OrderedSet.place]
    split
    · simp
    · next h =>
      have e : k = e.1 := Std.LawfulEqOrd.eq_of_compare h
      simp [e]
    · simp [ih]

variable [Std.TransOrd κ] [Std.LawfulEqOrd κ]

/-- Binds `k` to `v`, over an earlier binding of `k`. -/
def insert (m : OrderedMap κ α) (k : κ) (v : α) : OrderedMap κ α :=
  ⟨place k v m.entries, by
    rw [map_fst_place]
    exact OrderedSet.increasing_place m.increasing⟩

/-- The map of a list of bindings; of two with one key the later counts. -/
def ofList (l : List (κ × α)) : OrderedMap κ α := l.foldl (fun m e => m.insert e.1 e.2) ∅

omit [Std.TransOrd κ] in
private theorem find?_place [DecidableEq κ] (k k' : κ) (v : α) (l : List (κ × α)) :
    (((place k v l).find? fun e => e.1 = k').map (·.2)) =
      if k = k' then some v else (l.find? fun e => e.1 = k').map (·.2) := by
  induction l with
  | nil => by_cases h : k = k' <;> simp [place, h]
  | cons e es ih =>
    unfold place
    split
    · by_cases h : k = k' <;> simp [h]
    · next hk =>
      have hk' : k = e.1 := Std.LawfulEqOrd.eq_of_compare hk
      by_cases h : k = k'
      · simp [h]
      · have h' : ¬ e.1 = k' := fun he => h (hk'.trans he)
        simp [h, h']
    · next hgt =>
      by_cases he : e.1 = k'
      · have hne : ¬ k = k' := fun hkk => by
          have : compare k e.1 = .eq := by rw [hkk, ← he]; exact Std.ReflCmp.compare_self
          rw [this] at hgt
          exact nomatch hgt
        simp [he, hne]
      · rw [List.find?_cons, List.find?_cons]
        simpa [he] using ih

/-- What is bound to `k'` after `k` was bound to `v`. -/
theorem get?_insert [DecidableEq κ] (m : OrderedMap κ α) (k k' : κ) (v : α) :
    (m.insert k v).get? k' = if k = k' then some v else m.get? k' :=
  find?_place k k' v m.entries

end OrderedMap

end DeviceAccess
