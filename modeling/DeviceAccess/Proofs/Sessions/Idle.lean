import DeviceAccess.Proofs.Along
import DeviceAccess.Proofs.Sessions.Lookup
import DeviceAccess.Proofs.Sessions.Refresh

/-!
# The idle sweep and what happens meanwhile

The idle sweep collects, at one instant, the sessions that were not used for longer than a timeout,
and closes them afterwards, one at a time; between two of its turns the cache is open to everybody.
A turn only asks whether the id still stands for the session that was collected, and not whether
somebody used it since.

After the instant of the collection an entry of the cache is either as the collection found it or was
renewed by a use or an insertion, and then its last use is not before that instant
(`get?_after`).  So what the sweep closes is either idle still or was renewed, and it spares the
sessions that were used since if and only if whatever it closes is still idle
(`idleSweep_spares_iff`).  A sweep that nothing interrupts leaves the sessions that were used within
the timeout (`SessionManager.closeIdle_keeps`).
-/

namespace DeviceAccess

variable {σ : Type}

/-- The operations that the cache may see while a sweep that collected `idle` at the instant `now` is
on its way: uses and insertions from that instant on, removals, and the turns of the sweep. -/
def CacheOp.During (now : Nat) (idle : List (String × σ)) : CacheOp σ → Prop
  | .touch _ time => now ≤ time
  | .insert _ _ time _ => now ≤ time
  | .remove _ => True
  | .removeIfSame id s => (id, s) ∈ idle

instance (now : Nat) (idle : List (String × σ)) [DecidableEq σ] :
    (op : CacheOp σ) → Decidable (op.During now idle)
  | .touch _ time => inferInstanceAs (Decidable (now ≤ time))
  | .insert _ _ time _ => inferInstanceAs (Decidable (now ≤ time))
  | .remove _ => isTrue trivial
  | .removeIfSame id s => inferInstanceAs (Decidable ((id, s) ∈ idle))

/-- The operation is a use that finds the session `s` under the id, or puts it in there. -/
def CacheOp.Renews (c : SessionCache σ) (id : String) (s : σ) : CacheOp σ → Prop
  | .touch id' time => id' = id ∧ (c.touch id' time).2 = some s
  | .insert id' s' _ _ => id' = id ∧ s' = s ∧ c.contains id = false
  | .remove _ | .removeIfSame _ _ => False

namespace SessionCache

variable [DecidableEq σ] {c : SessionCache σ} {id : String} {s : σ} {e : CacheEntry σ}
  {now timeout : Nat} {ops : List (CacheOp σ)} {op : CacheOp σ}

/-- The cache after operations. -/
def after (c : SessionCache σ) (ops : List (CacheOp σ)) : SessionCache σ :=
  ops.foldl (fun c op => (c.step op).1) c

/-- It is the run of the operations without its answers. -/
theorem after_eq_runOps (c : SessionCache σ) (ops : List (CacheOp σ)) :
    c.after ops = (runOps SessionCache.step c ops).1 := by
  induction ops generalizing c with
  | nil => rfl
  | cons op ops ih => exact ih (c.step op).1

theorem after_concat (c : SessionCache σ) (ops : List (CacheOp σ)) (op : CacheOp σ) :
    c.after (ops ++ [op]) = ((c.after ops).step op).1 := by
  unfold after
  rw [List.foldl_append]
  rfl

/-- Removals of sessions, as operations one after the other. -/
theorem after_removeEach (c : SessionCache σ) (es : List (String × σ)) :
    c.after (es.map fun e => .removeIfSame e.1 e.2) =
      es.foldl (fun c e => (c.removeIfSame e.1 e.2).1) c := by
  unfold after
  rw [List.foldl_map]
  rfl

/-- Among the operations is one that renews the session of the id. -/
def Renewed (c : SessionCache σ) (ops : List (CacheOp σ)) (id : String) (s : σ) : Prop :=
  ∃ first op, first ++ [op] <+: ops ∧ op.Renews (c.after first) id s

theorem not_renewed_nil : ¬c.Renewed [] id s := by
  rintro ⟨first, op, hstart, -⟩
  exact List.append_ne_nil_of_right_ne_nil first (List.cons_ne_nil op []) (List.prefix_nil.1 hstart)

theorem renewed_concat :
    c.Renewed (ops ++ [op]) id s ↔ c.Renewed ops id s ∨ op.Renews (c.after ops) id s := by
  unfold Renewed
  constructor
  · rintro ⟨first, op', hstart, hrenews⟩
    obtain heq | hstart := List.prefix_concat_iff.1 hstart
    · obtain ⟨rfl, hop⟩ := List.append_inj' heq rfl
      obtain rfl := List.singleton_inj.1 hop
      exact .inr hrenews
    · exact .inl ⟨first, op', hstart, hrenews⟩
  · rintro (⟨first, op', hstart, hrenews⟩ | hrenews)
    · exact ⟨first, op', hstart.trans (List.prefix_append ops [op]), hrenews⟩
    · exact ⟨ops, op, List.prefix_refl _, hrenews⟩

/-- What renewed a session that was not put in was a use. -/
theorem exists_touch_of_renewed (h : c.Renewed ops id s)
    (hnot : ∀ time capacity, .insert id s time capacity ∉ ops) :
    ∃ first time second, ops = first ++ .touch id time :: second ∧
      ((c.after first).touch id time).2 = some s := by
  obtain ⟨first, op, ⟨second, rfl⟩, hrenews⟩ := h
  cases op with
  | touch id' time =>
      obtain ⟨rfl, hfound⟩ := hrenews
      exact ⟨first, time, second, List.append_assoc first _ _, hfound⟩
  | insert id' s' time capacity =>
      obtain ⟨rfl, rfl, -⟩ := hrenews
      refine absurd (List.mem_append_left second ?_) (hnot time capacity)
      exact List.mem_append_right first (List.mem_singleton_self _)
  | remove id' => cases hrenews
  | removeIfSame id' s' => cases hrenews

/-! ### Entries -/

/-- What an operation leaves under an id it renewed, at its own instant, or found there. -/
theorem get?_step {idle : List (String × σ)} (hop : op.During now idle)
    (he : (c.step op).1.entries.get? id = some e) :
    op.Renews c id e.session ∧ now ≤ e.lastVisit ∨
      ¬op.Renews c id e.session ∧ c.entries.get? id = some e := by
  cases op with
  | touch id' time =>
      have hfound := touch_snd c id' time
      obtain ⟨hid, hpeek, rfl⟩ | ⟨hid, hget⟩ := get?_of_touch he
      · exact .inl ⟨⟨hid, hfound.trans hpeek⟩, hop⟩
      · exact .inr ⟨fun h => hid h.1, hget⟩
  | insert id' s' time capacity =>
      obtain ⟨hget, hid⟩ | ⟨hfree, rfl, rfl⟩ := get?_of_insert he
      · exact .inr ⟨fun h => hid (h.1 ▸ h.2.2) h.1.symm, hget⟩
      · exact .inl ⟨⟨rfl, rfl, hfree⟩, hop⟩
  | remove id' => exact .inr ⟨not_false, (get?_of_remove he).2⟩
  | removeIfSame id' s' =>
      refine .inr ⟨not_false, ?_⟩
      simp only [step, removeIfSame] at he
      split at he
      · exact (get?_of_remove he).2
      · exact he

/-- After the collection an entry was renewed, and its last use is not before the collection, or it is
as the collection found it. -/
theorem get?_after {idle : List (String × σ)} (hops : ∀ op ∈ ops, op.During now idle)
    (he : (c.after ops).entries.get? id = some e) :
    c.Renewed ops id e.session ∧ now ≤ e.lastVisit ∨
      ¬c.Renewed ops id e.session ∧ c.entries.get? id = some e := by
  induction ops using List.reverseRecOn with
  | nil => exact .inr ⟨not_renewed_nil, he⟩
  | append_singleton ops op ih =>
      rw [after_concat] at he
      rw [renewed_concat]
      have hop := hops op (List.mem_append_right ops (List.mem_singleton_self op))
      obtain ⟨hrenews, hnow⟩ | ⟨hnot, hget⟩ := get?_step hop he
      · exact .inl ⟨.inr hrenews, hnow⟩
      · have hbefore := ih (fun op hmem => hops op (List.mem_append_left _ hmem)) hget
        obtain ⟨hrenewed, hnow⟩ | ⟨hnot', hfound⟩ := hbefore
        · exact .inl ⟨.inl hrenewed, hnow⟩
        · exact .inr ⟨not_or.2 ⟨hnot', hnot⟩, hfound⟩

omit [DecidableEq σ] in
theorem mem_idleSince_iff :
    (id, s) ∈ c.idleSince now timeout ↔
      ∃ e, c.entries.get? id = some e ∧ e.session = s ∧ timeout < now - e.lastVisit := by
  unfold idleSince
  rw [List.mem_map]
  constructor
  · rintro ⟨⟨id', e⟩, hmem, heq⟩
    obtain ⟨hmem, hidle⟩ := List.mem_filter.1 hmem
    obtain ⟨rfl, rfl⟩ := Prod.mk.inj heq
    exact ⟨e, OrderedMap.get?_eq_some_iff.2 hmem, rfl, of_decide_eq_true hidle⟩
  · rintro ⟨e, hget, rfl, hidle⟩
    exact ⟨(id, e), List.mem_filter.2 ⟨OrderedMap.get?_eq_some_iff.1 hget, decide_eq_true hidle⟩, rfl⟩

/-! ### The turns of the sweep -/

theorem removeIfSame_snd_iff :
    (c.removeIfSame id s).2 = true ↔ ∃ e, c.entries.get? id = some e ∧ e.session = s := by
  rw [← peek?_eq_some_iff]
  unfold removeIfSame
  split
  · next h => exact iff_of_true rfl h
  · next h => exact iff_of_false Bool.false_ne_true h

/-- No turn closes a session that a use found since the collection. -/
def SparesVisited (c : SessionCache σ) (ops : List (CacheOp σ)) : Prop :=
  ∀ first id time second s, first ++ .touch id time :: second ++ [.removeIfSame id s] <+: ops →
    ((c.after first).touch id time).2 = some s →
      ((c.after (first ++ .touch id time :: second)).removeIfSame id s).2 = false

/-- If the operation is a turn that closes its session, the last use of that is still more than
`timeout` before `now`. -/
def ClosesIdle (now timeout : Nat) (c : SessionCache σ) : CacheOp σ → Prop
  | .removeIfSame id s =>
    ((c.entries.get? id).all fun e => e.session = s → timeout < now - e.lastVisit) = true
  | _ => True

instance (now timeout : Nat) (c : SessionCache σ) :
    (op : CacheOp σ) → Decidable (c.ClosesIdle now timeout op)
  | .removeIfSame _ _ => inferInstanceAs (Decidable (_ = true))
  | .touch _ _ | .insert _ _ _ _ | .remove _ => isTrue trivial

theorem closesIdle_removeIfSame_iff :
    c.ClosesIdle now timeout (.removeIfSame id s) ↔
      ∀ e, c.entries.get? id = some e → e.session = s → timeout < now - e.lastVisit := by
  unfold ClosesIdle
  simp only [Option.all_eq_true, decide_eq_true_eq]

/-- What a turn closes was renewed since the collection, and was then used at that instant or later,
or it is as the collection found it. -/
theorem idle_or_renewed {before : List (CacheOp σ)}
    (hops : ∀ op ∈ ops, op.During now (c.idleSince now timeout))
    (hturn : before ++ [.removeIfSame id s] <+: ops)
    (he : (c.after before).entries.get? id = some e) (hs : e.session = s) :
    c.Renewed before id s ∧ now ≤ e.lastVisit ∨
      ¬c.Renewed before id s ∧ c.entries.get? id = some e ∧ timeout < now - e.lastVisit := by
  subst hs
  have hmem := hops _ (hturn.subset (List.mem_append_right before (List.mem_singleton_self _)))
  have hbefore : ∀ op ∈ before, op.During now (c.idleSince now timeout) := fun op hop =>
    hops op (hturn.subset (List.mem_append_left _ hop))
  obtain hrenewed | ⟨hnot, hget⟩ := get?_after hbefore he
  · exact .inl hrenewed
  · obtain ⟨e', hget', -, hidle⟩ := mem_idleSince_iff.1 hmem
    obtain rfl := Option.some.inj (hget.symm.trans hget')
    exact .inr ⟨hnot, hget, hidle⟩

/-- **The idle sweep closes what it collected, also what was used since.**  Once the sessions idle at
`now` are collected, let uses and insertions from that instant on, removals and the turns of the sweep
follow in any order.  A turn closes its session exactly if the id still stands for it; then the
session was renewed since the collection and its last use is not before `now`, or it is as the
collection found it and its last use is more than `timeout` before `now`.  So, if no collected
session is put in again, the sweep spares the sessions that were used since exactly if whatever it
closes is still idle at its turn. -/
theorem idleSweep_spares_iff (c : SessionCache σ) (now timeout : Nat) (ops : List (CacheOp σ))
    (hops : ∀ op ∈ ops, op.During now (c.idleSince now timeout)) :
    (∀ before id s, before ++ [.removeIfSame id s] <+: ops →
      (((c.after before).removeIfSame id s).2 = true ↔
        ∃ e, (c.after before).entries.get? id = some e ∧ e.session = s) ∧
      ∀ e, (c.after before).entries.get? id = some e → e.session = s →
        (c.Renewed before id s ∧ now ≤ e.lastVisit ∨
          ¬c.Renewed before id s ∧ c.entries.get? id = some e ∧ timeout < now - e.lastVisit)) ∧
    ((∀ id s time capacity, .insert id s time capacity ∈ ops → (id, s) ∉ c.idleSince now timeout) →
      (c.SparesVisited ops ↔
        Along (fun c op => (c.step op).1) (ClosesIdle now timeout) c ops)) := by
  refine ⟨fun before id s hturn => ⟨removeIfSame_snd_iff, fun e he hs =>
    idle_or_renewed hops hturn he hs⟩, fun hfresh => ?_⟩
  rw [along_iff_forall_first]
  constructor
  · intro hspares before op hstart
    cases op with
    | touch id time => exact trivial
    | insert id s time capacity => exact trivial
    | remove id => exact trivial
    | removeIfSame id s =>
        refine closesIdle_removeIfSame_iff.2 fun e he hs => ?_
        obtain ⟨hrenewed, -⟩ | ⟨-, -, hidle⟩ := idle_or_renewed hops hstart he hs
        -- A collected session is not put in again, so a use renewed it, and the turn has to spare it.
        · have hcollected := hops _ (hstart.subset (List.mem_append_right before
            (List.mem_singleton_self _)))
          have hnot : ∀ time capacity, .insert id s time capacity ∉ before :=
            fun time capacity hmem => hfresh id s time capacity
              (hstart.subset (List.mem_append_left _ hmem)) hcollected
          obtain ⟨first, time, second, rfl, hfound⟩ := exists_touch_of_renewed hrenewed hnot
          have hspared := hspares first id time second s hstart hfound
          exact absurd (removeIfSame_snd_iff.2 ⟨e, he, hs⟩) (Bool.eq_false_iff.1 hspared)
        · exact hidle
  · intro hidle first id time second s hstart hfound
    refine Bool.eq_false_iff.2 fun hclosed => ?_
    obtain ⟨e, he, hs⟩ := removeIfSame_snd_iff.1 hclosed
    have hlast := closesIdle_removeIfSame_iff.1 (hidle _ _ hstart) e he hs
    have hrenewed : c.Renewed (first ++ .touch id time :: second) id s :=
      ⟨first, .touch id time, ⟨second, List.append_assoc _ _ _⟩, rfl, hfound⟩
    obtain ⟨-, hnow⟩ | ⟨hnot, -⟩ := idle_or_renewed hops hstart he hs
    · omega
    · exact hnot hrenewed

/-- Two sessions that were not used for longer than an hour when the sweep collects them, and one that
was; instants are in milliseconds. -/
def idlePair : SessionCache String :=
  empty.after [.insert "a" "first" 0 9, .insert "b" "second" 1 9, .insert "c" "third" 3000000 9]

/-- One session is used and closed by its owner before its turn, the other has its turn at once. -/
theorem idlePair_spared :
    let ops : List (CacheOp String) := [.touch "a" 3700001, .touch "c" 3700002,
      .removeIfSame "b" "second", .remove "a", .removeIfSame "a" "first"]
    idlePair.idleSince 3700000 3600000 = [("a", "first"), ("b", "second")] ∧
      (idlePair.after ops).idsByRecency = ["c"] ∧ idlePair.SparesVisited ops := by
  intro ops
  have hops : ∀ op ∈ ops, op.During 3700000 (idlePair.idleSince 3700000 3600000) := by
    decide +kernel
  refine ⟨by decide +kernel, by decide +kernel,
    ((idleSweep_spares_iff idlePair 3700000 3600000 ops hops).2 ?_).2 (by decide +kernel)⟩
  intro id s time capacity hmem
  simp [ops] at hmem

/-- **A session in use is closed.**  It was idle when the sweep collected it and is used before its
turn; the turn finds it under its id and closes it. -/
theorem idleSweep_closes_visited :
    let ops : List (CacheOp String) := [.touch "a" 3700001, .removeIfSame "a" "first"]
    (∀ op ∈ ops, op.During 3700000 (idlePair.idleSince 3700000 3600000)) ∧
      ¬idlePair.SparesVisited ops := by
  intro ops
  constructor
  · decide +kernel
  · intro hspares
    have hspared := hspares [] "a" 3700001 [] "first" (List.prefix_refl _) (by decide +kernel)
    exact absurd hspared (by decide +kernel)

/-! ### The sweep alone -/

namespace Keeps

variable {l : RecencyList σ}

omit [DecidableEq σ] in
theorem mem_idleSince_iff (h : c.Keeps l) :
    (id, s) ∈ c.idleSince now timeout ↔ ∃ time, (id, s, time) ∈ l ∧ timeout < now - time := by
  have hvisit := h.visit?_eq id
  rw [SessionCache.mem_idleSince_iff]
  constructor
  · rintro ⟨e, hget, rfl, hidle⟩
    rw [hget] at hvisit
    exact ⟨e.lastVisit, (RecencyList.visit?_eq_some_iff h.nodup).1 hvisit.symm, hidle⟩
  · rintro ⟨time, hmem, hidle⟩
    rw [(RecencyList.visit?_eq_some_iff h.nodup).2 hmem, Option.map_eq_some_iff] at hvisit
    obtain ⟨e, hget, heq⟩ := hvisit
    obtain ⟨rfl, rfl⟩ := Prod.mk.inj heq
    exact ⟨e, hget, rfl, hidle⟩

/-- The sessions that are not idle, by the times in the list. -/
theorem filter_not_mem_idleSince (h : c.Keeps l) (now timeout : Nat) :
    (l.filter fun v => (v.1, v.2.1) ∉ c.idleSince now timeout) =
      l.filter fun v => now - v.2.2 ≤ timeout := by
  refine List.filter_congr fun v hv => ?_
  obtain ⟨id, s, time⟩ := v
  rw [decide_eq_decide, h.mem_idleSince_iff, ← Nat.not_lt, not_iff_not]
  constructor
  · rintro ⟨time', hmem, hidle⟩
    have hvisit := (RecencyList.visit?_eq_some_iff h.nodup).2 hv
    have hvisit' := (RecencyList.visit?_eq_some_iff h.nodup).2 hmem
    cases hvisit.symm.trans hvisit'
    exact hidle
  · intro hidle
    exact ⟨time, hv, hidle⟩

/-- A removal that answers that it took place takes one session out, any other none. -/
theorem size_removeIfSame (h : c.Keeps l) (id : String) (s : σ) :
    (c.removeIfSame id s).1.size + (if (c.removeIfSame id s).2 then 1 else 0) = c.size := by
  unfold SessionCache.removeIfSame
  split
  · next hsame =>
      obtain ⟨time, hmem⟩ := h.peek?_eq_some_iff.1 hsame
      have hid : id ∈ l.ids := List.mem_map.2 ⟨_, hmem, rfl⟩
      have herase : (l.erase id).ids = l.ids.erase id := by
        rw [RecencyList.ids_erase, h.nodup.erase_eq_filter]
        exact List.filter_congr fun id' _ => by simp [bne, beq_eq_decide]
      have hlength := congrArg List.length herase
      rw [List.length_erase_of_mem hid] at hlength
      have hpos := List.length_pos_of_mem hid
      unfold RecencyList.ids at hlength hpos
      rw [List.length_map] at hpos
      rw [List.length_map, List.length_map] at hlength
      rw [if_pos rfl, (h.remove id).1.size_eq, h.size_eq, hlength]
      exact Nat.sub_add_cancel hpos
  · rfl

end Keeps

end SessionCache

namespace SessionManager

variable {m : SessionManager} {l : RecencyList Session}

/-- If nothing comes between the turns of the sweep, they are one run. -/
theorem cache_closeAll (m : SessionManager) (es : List (String × Session)) :
    (m.closeAll es).1.cache = m.cache.after (es.map fun e => .removeIfSame e.1 e.2) := by
  rw [cache_closeAll_eq_foldl, SessionCache.after_removeEach]

/-- A turn counts if it closes its session. -/
theorem closeAll_concat_snd (m : SessionManager) (es : List (String × Session))
    (e : String × Session) :
    (m.closeAll (es ++ [e])).2 =
      (m.closeAll es).2 + if ((m.closeAll es).1.closeIfSame e).2 then 1 else 0 := by
  unfold closeAll
  rw [List.foldl_append]
  generalize List.foldl _ (m, 0) es = r
  show (if (r.1.closeIfSame e).2 then r.2 + 1 else r.2) = _
  split
  · rfl
  · rfl

theorem size_closeAll (h : m.cache.Keeps l) (es : List (String × Session)) :
    (m.closeAll es).1.size + (m.closeAll es).2 = m.size := by
  induction es using List.reverseRecOn with
  | nil => rfl
  | append_singleton es e ih =>
      have hturn : ((m.closeAll es).1.closeIfSame e).1.size +
          (if ((m.closeAll es).1.closeIfSame e).2 then 1 else 0) = (m.closeAll es).1.size :=
        (keeps_closeAll h es).size_removeIfSame e.1 e.2
      rw [closeAll_concat, closeAll_concat_snd]
      omega

/-- **A sweep that nothing interrupts closes the idle sessions.**  The sessions that were used within
the timeout are left, in their order by recency and with the times of their last use, and the answer
is how many others there were. -/
theorem closeIdle_keeps (h : m.cache.Keeps l) (now timeout : Nat) :
    (m.closeIdle now timeout).1.cache =
        m.cache.after ((m.cache.idleSince now timeout).map fun e => .removeIfSame e.1 e.2) ∧
      (m.closeIdle now timeout).1.cache.Keeps (l.filter fun v => now - v.2.2 ≤ timeout) ∧
      (m.closeIdle now timeout).1.size + (m.closeIdle now timeout).2 = m.size := by
  refine ⟨cache_closeAll m _, ?_, size_closeAll h _⟩
  rw [← h.filter_not_mem_idleSince]
  exact keeps_closeAll h _

end SessionManager

end DeviceAccess
