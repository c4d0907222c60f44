import Mathlib.Data.List.Basic
import DeviceAccess.Proofs.Sessions.Idle

/-!
# Two ages of a session

The cache tells in two ways which of two sessions is older: by the ticks, which evictions follow, and
by the times of the last use, which the idle sweep follows.  The two stand in different indices and no
operation compares them.  A tick says no more than the order of uses; an operation spends at most one
(`SessionCache.lastTick_run_le`).

Whatever the instants of the operations are, the times of the last use along the ids by recency are a
subsequence of them (`RecencyList.visits_run_sublist`): a use and an insertion put their instant at the
end, and nothing else adds or moves a time.  So if the instants never decrease, the times do not either,
what is idle stands in front, and closing it leaves the cache that the eviction of as many sessions
leaves (`SessionCache.Keeps.evictTo_eq_sweep`).
-/

namespace DeviceAccess

variable {σ : Type}

/-- The instant of an operation; removals have none. -/
def CacheOp.instant? : CacheOp σ → Option Nat
  | .touch _ now => some now
  | .insert _ _ now _ => some now
  | .remove _ | .removeIfSame _ _ => none

/-- The instants of the operations never decrease. -/
def Chronological (ops : List (CacheOp σ)) : Prop :=
  (ops.filterMap CacheOp.instant?).Pairwise (· ≤ ·)

instance (ops : List (CacheOp σ)) : Decidable (Chronological ops) :=
  inferInstanceAs (Decidable (List.Pairwise _ _))

/-- If no element has a property that one before it lacks, those that have it are the front of the
list and the others are the rest. -/
theorem filter_of_pairwise {α : Type} {p : α → Bool} {l : List α}
    (h : l.Pairwise fun a b => p b = true → p a = true) :
    l.filter p = l.take (l.countP p) ∧ (l.filter fun a => !p a) = l.drop (l.countP p) := by
  induction l with
  | nil => exact ⟨rfl, rfl⟩
  | cons a l ih =>
      obtain ⟨hfirst, hrest⟩ := List.pairwise_cons.1 h
      by_cases ha : p a = true
      · obtain ⟨htake, hdrop⟩ := ih hrest
        rw [List.countP_cons_of_pos ha, List.take_succ_cons, List.drop_succ_cons, ← htake, ← hdrop]
        exact ⟨List.filter_cons_of_pos ha, List.filter_cons_of_neg (by simp [ha])⟩
      · have hnone : ∀ b ∈ a :: l, ¬p b = true := by
          intro b hb hpb
          obtain rfl | hb := List.mem_cons.1 hb
          · exact ha hpb
          · exact ha (hfirst b hb hpb)
        rw [List.countP_eq_zero.2 hnone, List.take_zero, List.drop_zero]
        exact ⟨List.filter_eq_nil_iff.2 hnone,
          List.filter_eq_self.2 fun b hb => by simpa using hnone b hb⟩

/-! ### Times of the last use -/

namespace RecencyList

variable {l : RecencyList σ}

/-- The times of the last use, from the least to the most recently used session. -/
def visits (l : RecencyList σ) : List Nat := l.map (·.2.2)

theorem visits_append (l m : RecencyList σ) : visits (l ++ m) = visits l ++ visits m :=
  List.map_append

/-- If the times never decrease, what is idle stands in front of what is not. -/
theorem filter_idle (h : l.visits.Pairwise (· ≤ ·)) (now timeout : Nat) :
    let idle : String × σ × Nat → Bool := fun v => timeout < now - v.2.2
    l.filter idle = l.take (l.countP idle) ∧
      (l.filter fun v => now - v.2.2 ≤ timeout) = l.drop (l.countP idle) := by
  intro idle
  have hfront : l.Pairwise fun v w => idle w = true → idle v = true := by
    unfold visits at h
    rw [List.pairwise_map] at h
    refine h.imp fun {v w} hle hw => ?_
    have hlast : timeout < now - w.2.2 := of_decide_eq_true hw
    exact decide_eq_true (show timeout < now - v.2.2 by omega)
  obtain ⟨htake, hdrop⟩ := filter_of_pairwise hfront
  refine ⟨htake, ?_⟩
  rw [← hdrop]
  refine List.filter_congr fun v _ => ?_
  rw [← decide_not, decide_eq_decide, Nat.not_lt]

theorem visits_erase_sublist (l : RecencyList σ) (id : String) :
    (l.erase id).visits.Sublist l.visits :=
  List.filter_sublist.map _

theorem visits_touch_sublist (l : RecencyList σ) (id : String) (now : Nat) :
    (l.touch id now).1.visits.Sublist (l.visits ++ [now]) := by
  unfold touch
  split
  · exact List.sublist_append_left l.visits [now]
  · rw [visits_append]
    exact (l.visits_erase_sublist id).append_right [now]

theorem visits_insert_sublist (l : RecencyList σ) (id : String) (session : σ) (now capacity : Nat) :
    (l.insert id session now capacity).1.visits.Sublist (l.visits ++ [now]) := by
  unfold insert shorten
  split
  · exact List.sublist_append_left l.visits [now]
  · have hdrop : (visits (List.drop ((l ++ [(id, session, now)]).length - max capacity 1)
        (l ++ [(id, session, now)]))).Sublist (visits (l ++ [(id, session, now)])) :=
      (List.drop_sublist _ _).map _
    rw [visits_append] at hdrop
    exact hdrop

variable [DecidableEq σ]

/-- An operation adds its instant at the end; else it only drops times. -/
theorem visits_step_sublist (l : RecencyList σ) (op : CacheOp σ) :
    (l.step op).1.visits.Sublist (l.visits ++ op.instant?.toList) := by
  cases op with
  | touch id now => exact l.visits_touch_sublist id now
  | insert id session now capacity => exact l.visits_insert_sublist id session now capacity
  | remove id =>
      show (l.erase id).visits.Sublist (l.visits ++ [])
      rw [List.append_nil]
      exact l.visits_erase_sublist id
  | removeIfSame id session =>
      show (l.step (.removeIfSame id session)).1.visits.Sublist (l.visits ++ [])
      rw [List.append_nil]
      simp only [step]
      split
      · exact l.visits_erase_sublist id
      · exact List.Sublist.refl l.visits

/-- The times after a run are a subsequence of those before it and of the instants of the run. -/
theorem visits_run_sublist (l : RecencyList σ) (ops : List (CacheOp σ)) :
    (runOps step l ops).1.visits.Sublist (l.visits ++ ops.filterMap CacheOp.instant?) := by
  induction ops using List.reverseRecOn with
  | nil => exact List.sublist_append_left l.visits []
  | append_singleton ops op ih =>
      rw [runOps_concat, List.filterMap_append, ← List.append_assoc]
      have hlast : [op].filterMap CacheOp.instant? = op.instant?.toList := by
        rw [List.filterMap_eq_flatMap_toList, List.flatMap_singleton]
      rw [hlast]
      exact (visits_step_sublist _ op).trans (ih.append_right op.instant?.toList)

/-- Instants that never decrease leave times that never decrease. -/
theorem pairwise_visits_run {ops : List (CacheOp σ)} (h : Chronological ops) :
    (runOps step ([] : RecencyList σ) ops).1.visits.Pairwise (· ≤ ·) :=
  h.sublist (visits_run_sublist [] ops)

end RecencyList

namespace SessionCache

variable {c c₁ c₂ : SessionCache σ} {l : RecencyList σ} {id : String}

/-- The time of the last use of a session. -/
def lastVisit? (c : SessionCache σ) (id : String) : Option Nat :=
  (c.entries.get? id).map (·.lastVisit)

/-- The cache after the least recently used sessions are evicted until at most `limit` are left, and
the ids that went. -/
def evictTo (c : SessionCache σ) (limit : Nat) : SessionCache σ × List String :=
  let (entries, order, gone) := evict limit c.entries c.order
  (⟨entries, order, c.lastTick⟩, gone)

/-! ### What is left of a cache -/

/-- The first cache is what is left of the second after some sessions went. -/
structure IsLeftOf (c₁ c₂ : SessionCache σ) : Prop where
  get?_of : ∀ id e, c₁.entries.get? id = some e → c₂.entries.get? id = some e
  lastTick_eq : c₁.lastTick = c₂.lastTick

theorem isLeftOf_remove (c : SessionCache σ) (id : String) : (c.remove id).1.IsLeftOf c where
  get?_of := fun id' e he => (get?_of_remove he).2
  lastTick_eq := by
    unfold remove
    split
    · rfl
    · rfl

theorem isLeftOf_evictTo (c : SessionCache σ) (limit : Nat) : (c.evictTo limit).1.IsLeftOf c where
  get?_of := fun _ _ he => get?_of_evict he
  lastTick_eq := rfl

theorem isLeftOf_removeEach [DecidableEq σ] (c : SessionCache σ) (es : List (String × σ)) :
    (es.foldl (fun c e => (c.removeIfSame e.1 e.2).1) c).IsLeftOf c := by
  induction es using List.reverseRecOn with
  | nil => exact ⟨fun _ _ he => he, rfl⟩
  | append_singleton es e ih =>
      rw [List.foldl_append]
      generalize es.foldl _ c = c' at ih
      show (c'.removeIfSame e.1 e.2).1.IsLeftOf c
      unfold removeIfSame
      split
      · have hremove := c'.isLeftOf_remove e.1
        exact ⟨fun id e he => ih.get?_of id e (hremove.get?_of id e he),
          hremove.lastTick_eq.trans ih.lastTick_eq⟩
      · exact ih

namespace Keeps

/-- If the same sessions are left, every entry of the one is an entry of the other. -/
theorem get?_eq_some_of_isLeftOf (h₁ : c₁.Keeps l) (h₂ : c₂.Keeps l) (hleft₁ : c₁.IsLeftOf c)
    (hleft₂ : c₂.IsLeftOf c) {e : CacheEntry σ} (he : c₁.entries.get? id = some e) :
    c₂.entries.get? id = some e := by
  obtain ⟨e', he'⟩ := h₂.mem_ids_iff.1 (h₁.mem_ids_iff.2 ⟨e, he⟩)
  have heq := (hleft₁.get?_of id e he).symm.trans (hleft₂.get?_of id e' he')
  rw [he', Option.some.inj heq]

/-- What is left of a cache is determined by the sessions that are left. -/
theorem eq_of_isLeftOf (h₁ : c₁.Keeps l) (h₂ : c₂.Keeps l) (hleft₁ : c₁.IsLeftOf c)
    (hleft₂ : c₂.IsLeftOf c) : c₁ = c₂ := by
  have hentries : c₁.entries = c₂.entries := OrderedMap.ext_get? fun id => Option.ext fun e =>
    ⟨get?_eq_some_of_isLeftOf h₁ h₂ hleft₁ hleft₂, get?_eq_some_of_isLeftOf h₂ h₁ hleft₂ hleft₁⟩
  have horder : c₁.order = c₂.order := OrderedMap.ext_get? fun tick => Option.ext fun id => by
    rw [h₁.order_iff, h₂.order_iff, hentries]
  have htick := hleft₁.lastTick_eq.trans hleft₂.lastTick_eq.symm
  cases c₁
  cases c₂
  cases hentries
  cases horder
  cases htick
  rfl

/-! ### Both ages -/

theorem lastVisit?_eq (h : c.Keeps l) : c.lastVisit? id = (l.visit? id).map (·.2) := by
  rw [← h.visit?_eq, Option.map_map]
  rfl

/-- The ids by recency have the times of the list. -/
theorem map_lastVisit? (h : c.Keeps l) :
    c.idsByRecency.map c.lastVisit? = l.visits.map some := by
  rw [h.idsByRecency_eq, RecencyList.ids, RecencyList.visits, List.map_map, List.map_map]
  refine List.map_congr_left fun v hv => ?_
  have hvisit := (RecencyList.visit?_eq_some_iff h.nodup).2 hv
  show c.lastVisit? v.1 = some v.2.2
  rw [h.lastVisit?_eq, hvisit]
  rfl

/-- In the index by ticks the ticks increase and, if the times of the list never decrease, the times of
the last use do not decrease either. -/
theorem pairwise_order (h : c.Keeps l) (hvisits : l.visits.Pairwise (· ≤ ·)) :
    c.order.entries.Pairwise fun p q =>
      p.1 < q.1 ∧ ∀ t ∈ c.lastVisit? p.2, ∀ t' ∈ c.lastVisit? q.2, t ≤ t' := by
  have hticks := c.order.increasing
  unfold Increasing at hticks
  rw [List.pairwise_map] at hticks
  have htimes : (l.visits.map some).Pairwise fun a b => ∀ t ∈ a, ∀ t' ∈ b, t ≤ t' := by
    rw [List.pairwise_map]
    refine hvisits.imp fun hle t ht t' ht' => ?_
    obtain rfl := Option.some.inj ht
    obtain rfl := Option.some.inj ht'
    exact hle
  rw [← h.map_lastVisit?, idsByRecency, OrderedMap.values, List.map_map, List.pairwise_map] at htimes
  exact hticks.imp₂ (fun _ _ hlt hle => ⟨Nat.compare_eq_lt.1 hlt, hle⟩) htimes

/-- If the times never decrease, the lesser tick is not the later use. -/
theorem lastVisit_le_of_tick_lt (h : c.Keeps l) (hvisits : l.visits.Pairwise (· ≤ ·))
    {id id' : String} {e e' : CacheEntry σ} (he : c.entries.get? id = some e)
    (he' : c.entries.get? id' = some e') (htick : e.tick < e'.tick) :
    e.lastVisit ≤ e'.lastVisit := by
  have hmem := OrderedMap.get?_eq_some_iff.1 ((h.order_iff e.tick id).2 ⟨e, he, rfl⟩)
  have hmem' := OrderedMap.get?_eq_some_iff.1 ((h.order_iff e'.tick id').2 ⟨e', he', rfl⟩)
  obtain ⟨i, hi, hget⟩ := List.mem_iff_getElem.1 hmem
  obtain ⟨j, hj, hget'⟩ := List.mem_iff_getElem.1 hmem'
  have horder := List.pairwise_iff_getElem.1 (h.pairwise_order hvisits)
  -- The entry with the lesser tick stands first.
  obtain hlt | rfl | hgt := Nat.lt_trichotomy i j
  · have hle := (horder i j hi hj hlt).2
    rw [hget, hget', lastVisit?, lastVisit?, he, he'] at hle
    exact hle e.lastVisit rfl e'.lastVisit rfl
  · rw [(Prod.mk.inj (hget.symm.trans hget')).1] at htick
    exact absurd htick (Nat.lt_irrefl _)
  · have hlt := (horder j i hj hi hgt).1
    rw [hget, hget'] at hlt
    exact absurd hlt (Nat.lt_asymm htick)

/-! ### The sweep and the evictions -/

/-- The sweep reports, in some order, the ids of the sessions that are idle by their times. -/
theorem perm_idleSince (h : c.Keeps l) (now timeout : Nat) :
    ((c.idleSince now timeout).map (·.1)).Perm
      (RecencyList.ids (l.filter fun v => timeout < now - v.2.2)) := by
  have hreported : ((c.idleSince now timeout).map (·.1)).Nodup := by
    unfold idleSince
    rw [List.map_map]
    exact c.entries.increasing.nodup.sublist (List.filter_sublist.map _)
  have hidle : (RecencyList.ids (l.filter fun v => timeout < now - v.2.2)).Nodup :=
    h.nodup.sublist (List.filter_sublist.map _)
  refine (List.perm_ext_iff_of_nodup hreported hidle).2 fun id => ?_
  unfold RecencyList.ids
  rw [List.mem_map, List.mem_map]
  constructor
  · rintro ⟨⟨id, s⟩, hmem, rfl⟩
    obtain ⟨time, hmem, htime⟩ := h.mem_idleSince_iff.1 hmem
    exact ⟨(id, s, time), List.mem_filter.2 ⟨hmem, decide_eq_true htime⟩, rfl⟩
  · rintro ⟨⟨id, s, time⟩, hmem, rfl⟩
    obtain ⟨hmem, htime⟩ := List.mem_filter.1 hmem
    exact ⟨(id, s), h.mem_idleSince_iff.2 ⟨time, hmem, of_decide_eq_true htime⟩, rfl⟩

theorem length_idleSince (h : c.Keeps l) (now timeout : Nat) :
    (c.idleSince now timeout).length = l.countP fun v => timeout < now - v.2.2 := by
  have hlength := (h.perm_idleSince now timeout).length_eq
  unfold RecencyList.ids at hlength
  rw [List.length_map, List.length_map, ← List.countP_eq_length_filter] at hlength
  exact hlength

/-- If the times never decrease, the idle sessions are the first by recency. -/
theorem perm_idleSince_take (h : c.Keeps l) (hvisits : l.visits.Pairwise (· ≤ ·))
    (now timeout : Nat) :
    ((c.idleSince now timeout).map (·.1)).Perm
      (c.idsByRecency.take (c.idleSince now timeout).length) := by
  have hperm := h.perm_idleSince now timeout
  rw [(RecencyList.filter_idle hvisits now timeout).1, RecencyList.ids, List.map_take,
    ← h.length_idleSince] at hperm
  rw [h.idsByRecency_eq]
  exact hperm

/-- If the times never decrease, a sweep closes what the eviction of as many sessions evicts, and both
leave the same. -/
theorem evictTo_eq_sweep [DecidableEq σ] (h : c.Keeps l) (hvisits : l.visits.Pairwise (· ≤ ·))
    (now timeout : Nat) :
    c.evictTo (c.size - (c.idleSince now timeout).length) =
      (c.after ((c.idleSince now timeout).map fun e => .removeIfSame e.1 e.2),
        c.idsByRecency.take (c.idleSince now timeout).length) := by
  have hevict := h.evict (c.size - (c.idleSince now timeout).length)
  have hsweep := h.removeEach (c.idleSince now timeout)
  have hle : (c.idleSince now timeout).length ≤ l.length := by
    rw [h.length_idleSince]
    exact List.countP_le_length
  rw [h.filter_not_mem_idleSince, (RecencyList.filter_idle hvisits now timeout).2,
    ← h.length_idleSince] at hsweep
  rw [h.size_eq, RecencyList.shorten, Nat.sub_sub_self hle, ← h.size_eq] at hevict
  obtain ⟨hkeeps, hgone⟩ := hevict
  rw [after_removeEach]
  refine Prod.ext ?_ ?_
  · exact eq_of_isLeftOf hkeeps hsweep (c.isLeftOf_evictTo _) (c.isLeftOf_removeEach _)
  · rw [h.idsByRecency_eq, RecencyList.ids, ← List.map_take]
    exact hgone

/-- An insertion evicts from the front; the new session stays. -/
theorem evicted_of_insert (h : c.Keeps l) {session : σ} {time capacity : Nat} {gone : List String}
    (hgone : (c.insert id session time capacity).2 = some gone) : gone <+: c.idsByRecency := by
  rw [(h.insert id session time capacity).2] at hgone
  unfold RecencyList.insert at hgone
  split at hgone
  · cases hgone
  · have hle : (l ++ [(id, session, time)]).length - max capacity 1 ≤ l.length := by
      rw [List.length_append, List.length_singleton]
      omega
    obtain rfl := Option.some.inj hgone
    unfold RecencyList.shorten
    rw [h.idsByRecency_eq, List.take_append_of_le_length hle]
    exact (List.take_prefix _ l).map _

end Keeps

/-- **The idle sweep and the evictions agree on which session is older.**  After any operations from
the empty cache on whose instants never decrease, with any capacities, the times of the last use do not
decrease along the ids by recency, and of two sessions the one with the lesser tick was not used later.
So what is idle at any instant for any timeout is, up to the order of the report, the first ids by
recency; a sweep that closes it leaves the cache that the eviction of as many sessions leaves; and what
an insertion evicts are the first ids as well, so that it evicts nothing but idle sessions unless it
evicts them all. -/
theorem ages_agree_run [DecidableEq σ] (ops : List (CacheOp σ)) (hops : Chronological ops) :
    let c := (empty : SessionCache σ).after ops
    (∃ times : List Nat, c.idsByRecency.map c.lastVisit? = times.map some ∧
        times.Pairwise (· ≤ ·)) ∧
      (∀ id id' e e', c.entries.get? id = some e → c.entries.get? id' = some e' →
        e.tick < e'.tick → e.lastVisit ≤ e'.lastVisit) ∧
      ∀ now timeout,
        let idle := c.idleSince now timeout
        (idle.map (·.1)).Perm (c.idsByRecency.take idle.length) ∧
          c.evictTo (c.size - idle.length) =
            (c.after (idle.map fun e => .removeIfSame e.1 e.2), c.idsByRecency.take idle.length) ∧
          ∀ id session time capacity gone, (c.insert id session time capacity).2 = some gone →
            gone <+: c.idsByRecency ∧ (gone ⊆ idle.map (·.1) ∨ idle.map (·.1) ⊆ gone) := by
  intro c
  have hkeeps : c.Keeps (runOps RecencyList.step ([] : RecencyList σ) ops).1 := by
    show ((empty : SessionCache σ).after ops).Keeps _
    rw [after_eq_runOps]
    exact (keeps_empty.run ops).1
  have hvisits := RecencyList.pairwise_visits_run hops
  refine ⟨⟨_, hkeeps.map_lastVisit?, hvisits⟩,
    fun id id' e e' he he' htick => hkeeps.lastVisit_le_of_tick_lt hvisits he he' htick, ?_⟩
  intro now timeout idle
  have hperm := hkeeps.perm_idleSince_take hvisits now timeout
  refine ⟨hperm, hkeeps.evictTo_eq_sweep hvisits now timeout, ?_⟩
  intro id session time capacity gone hgone
  have hfirst := hkeeps.evicted_of_insert hgone
  refine ⟨hfirst, ?_⟩
  obtain hfew | hmany := List.prefix_or_prefix_of_prefix hfirst (List.take_prefix idle.length _)
  · exact .inl fun id' hid' => hperm.mem_iff.2 (hfew.subset hid')
  · exact .inr fun id' hid' => hmany.subset (hperm.mem_iff.1 hid')

/-- A run with an eviction, a use that finds nothing, a removal that finds another session and pairs of
operations at one instant; instants are in milliseconds. -/
def agedRun : List (CacheOp String) :=
  [.insert "b" "first" 0 3, .insert "c" "second" 1000 3, .insert "a" "third" 1000 3, .touch "c" 2000,
    .insert "d" "fourth" 2000 3, .touch "b" 2500, .removeIfSame "d" "first", .touch "a" 3000,
    .insert "b" "fifth" 3000 9, .touch "c" 3500]

theorem ages_agree_agedRun :
    let c := (empty : SessionCache String).after agedRun
    let idle := c.idleSince 8000 4800
    Chronological agedRun ∧
      c.idsByRecency.map (fun id => (id, c.lastVisit? id)) =
        [("d", some 2000), ("a", some 3000), ("b", some 3000), ("c", some 3500)] ∧
      idle = [("a", "third"), ("b", "fifth"), ("d", "fourth")] ∧
      (c.insert "e" "sixth" 8000 3).2 = some ["d", "a"] ∧
      (∃ times : List Nat, c.idsByRecency.map c.lastVisit? = times.map some ∧
        times.Pairwise (· ≤ ·)) ∧
      (idle.map (·.1)).Perm (c.idsByRecency.take idle.length) ∧
      c.evictTo (c.size - idle.length) =
        (c.after (idle.map fun e => .removeIfSame e.1 e.2), c.idsByRecency.take idle.length) ∧
      ["d", "a"] <+: c.idsByRecency ∧
      (["d", "a"] ⊆ idle.map (·.1) ∨ idle.map (·.1) ⊆ ["d", "a"]) := by
  intro c idle
  have hops : Chronological agedRun := by decide
  have hgone : (c.insert "e" "sixth" 8000 3).2 = some ["d", "a"] := by decide +kernel
  obtain ⟨htimes, -, hagree⟩ := ages_agree_run agedRun hops
  obtain ⟨hfirst, hsweep, hevicted⟩ := hagree 8000 4800
  exact ⟨hops, by decide +kernel, by decide +kernel, hgone, htimes, hfirst, hsweep,
    hevicted "e" "sixth" 8000 3 ["d", "a"] hgone⟩

end SessionCache

end DeviceAccess
