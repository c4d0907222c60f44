import DeviceAccess.Proofs.Along
import DeviceAccess.Proofs.Ordered
import DeviceAccess.Sessions.Cache

/-!
# The session cache as a list by recency

What the cache is for can be said without ticks: the live sessions stand in a list, each with its id
and the time of its last use, and the least recently used stands first (`RecencyList`).  A use moves
a session to the end, a new session goes to the end, and what exceeds the capacity goes from the
front.

`SessionCache.Keeps` relates a cache to its list.  Taking a session out and putting one at the end
are the only two changes that any operation makes, and both keep the relation
(`Keeps.erase`, `Keeps.append`); so every run of operations on the cache answers as the same run on
the list (`SessionCache.run_eq_recency`).

An insertion that puts a session into the cache keeps the capacity.  One that is refused, since its id is
taken, leaves the cache alone even if it names a smaller capacity
(`SessionCache.insert_taken_over_capacity`).
-/

namespace DeviceAccess

/-- An operation on the session cache. -/
inductive CacheOp (σ : Type) where
  | touch (id : String) (now : Nat)
  | insert (id : String) (session : σ) (now capacity : Nat)
  | remove (id : String)
  | removeIfSame (id : String) (session : σ)

/-- What an operation on the session cache answers. -/
inductive CacheAnswer (σ : Type) where
  | session (found : Option σ)
  | evicted (ids : Option (List String))
  | removed (same : Bool)
  deriving DecidableEq

/-- Live sessions from the least to the most recently used: id, session and time of the last
use. -/
abbrev RecencyList (σ : Type) := List (String × σ × Nat)

namespace RecencyList

variable {σ : Type}

/-- The ids in their order. -/
def ids (l : RecencyList σ) : List String := l.map (·.1)

/-- The session of an id with the time of its last use. -/
def visit? (l : RecencyList σ) (id : String) : Option (σ × Nat) :=
  (l.find? fun v => v.1 = id).map (·.2)

/-- The list without an id. -/
def erase (l : RecencyList σ) (id : String) : RecencyList σ := l.filter fun v => v.1 ≠ id

/-- A use of an id moves its session to the end. -/
def touch (l : RecencyList σ) (id : String) (now : Nat) : RecencyList σ × Option σ :=
  match l.visit? id with
  | none => (l, none)
  | some (session, _) => (l.erase id ++ [(id, session, now)], some session)

/-- The last `limit` sessions, and the ids of those before them. -/
def shorten (limit : Nat) (l : RecencyList σ) : RecencyList σ × List String :=
  (l.drop (l.length - limit), ids (l.take (l.length - limit)))

/-- A session under a new id goes to the end; then the list is shortened to the capacity. -/
def insert (l : RecencyList σ) (id : String) (session : σ) (now capacity : Nat) :
    RecencyList σ × Option (List String) :=
  if id ∈ l.ids then (l, none)
  else
    let (l, gone) := shorten (max capacity 1) (l ++ [(id, session, now)])
    (l, some gone)

/-- One operation on the list. -/
def step [DecidableEq σ] (l : RecencyList σ) : CacheOp σ → RecencyList σ × CacheAnswer σ
  | .touch id now =>
    let (l, found) := l.touch id now
    (l, .session found)
  | .insert id session now capacity =>
    let (l, gone) := l.insert id session now capacity
    (l, .evicted gone)
  | .remove id => (l.erase id, .session ((l.visit? id).map (·.1)))
  | .removeIfSame id session =>
    if (l.visit? id).map (·.1) = some session then (l.erase id, .removed true)
    else (l, .removed false)

/-! ### Ids and look-up -/

@[simp] theorem ids_append (l m : RecencyList σ) : ids (l ++ m) = ids l ++ ids m :=
  List.map_append

theorem ids_erase (l : RecencyList σ) (id : String) :
    ids (l.erase id) = l.ids.filter fun id' => id' ≠ id := by
  unfold ids erase
  rw [List.filter_map]
  rfl

theorem visit?_eq_none_iff {l : RecencyList σ} {id : String} :
    l.visit? id = none ↔ id ∉ l.ids := by
  unfold visit? ids
  rw [Option.map_eq_none_iff, List.find?_eq_none, List.mem_map]
  constructor
  · rintro h ⟨v, hv, rfl⟩
    simpa using h v hv
  · intro h v hv hid
    exact h ⟨v, hv, by simpa using hid⟩

theorem erase_of_not_mem {l : RecencyList σ} {id : String} (h : id ∉ l.ids) : l.erase id = l := by
  refine List.filter_eq_self.2 fun v hv => ?_
  have hne : v.1 ≠ id := by
    rintro rfl
    exact h (List.mem_map.2 ⟨v, hv, rfl⟩)
  simpa using hne

theorem visit?_erase (l : RecencyList σ) (id id' : String) :
    (l.erase id).visit? id' = if id = id' then none else l.visit? id' := by
  unfold visit? erase
  rw [List.find?_filter]
  split
  · next h =>
      subst h
      simp
  · next h =>
      congr 2
      funext v
      by_cases hv : v.1 = id'
      · have hne : id' ≠ id := fun e => h e.symm
        simp [hv, hne]
      · simp [hv]

theorem visit?_append_of_not_mem {l : RecencyList σ} {id : String} (h : id ∉ l.ids)
    (v : σ × Nat) (id' : String) :
    visit? (l ++ [(id, v)]) id' = if id = id' then some v else l.visit? id' := by
  unfold visit?
  rw [List.find?_append]
  split
  · next he =>
      subst he
      have hnone := visit?_eq_none_iff.2 h
      unfold visit? at hnone
      rw [Option.map_eq_none_iff] at hnone
      simp [hnone]
  · next he => simp [he]

/-! ### Insertion -/

theorem mem_ids_insert (l : RecencyList σ) (id : String) (session : σ) (now capacity : Nat) :
    id ∈ (l.insert id session now capacity).1.ids := by
  unfold insert shorten
  split
  · next h => exact h
  · have hle : (l ++ [(id, session, now)]).length - max capacity 1 ≤ l.length := by
      rw [List.length_append, List.length_singleton]
      omega
    rw [List.drop_append_of_le_length hle, ids_append]
    exact List.mem_append_right _ (List.mem_singleton_self id)

theorem length_insert_le {l : RecencyList σ} {id : String} (h : id ∉ l.ids) (session : σ)
    (now capacity : Nat) : (l.insert id session now capacity).1.length ≤ max capacity 1 := by
  unfold insert shorten
  rw [if_neg h]
  show (List.drop _ _).length ≤ _
  rw [List.length_drop]
  omega

/-- Only a new id is answered with the ids that had to go. -/
theorem not_mem_ids_of_insert {l : RecencyList σ} {id : String} {session : σ} {now capacity : Nat}
    {gone : List String} (h : (l.insert id session now capacity).2 = some gone) : id ∉ l.ids := by
  intro hid
  unfold insert at h
  rw [if_pos hid] at h
  cases h

end RecencyList

namespace SessionCache

variable {σ : Type}

/-- One operation on the cache. -/
def step [DecidableEq σ] (c : SessionCache σ) : CacheOp σ → SessionCache σ × CacheAnswer σ
  | .touch id now =>
    let (c, found) := c.touch id now
    (c, .session found)
  | .insert id session now capacity =>
    let (c, gone) := c.insert id session now capacity
    (c, .evicted gone)
  | .remove id =>
    let (c, found) := c.remove id
    (c, .session found)
  | .removeIfSame id session =>
    let (c, same) := c.removeIfSame id session
    (c, .removed same)

/-- The cache holds the sessions of the list, and both of its indices say so. -/
structure Keeps (c : SessionCache σ) (l : RecencyList σ) : Prop where
  /-- The ids stand in the order of their ticks. -/
  idsByRecency_eq : c.idsByRecency = l.ids
  /-- No id stands twice. -/
  nodup : l.ids.Nodup
  /-- Under each id are its session and the time of its last use. -/
  visit?_eq : ∀ id, (c.entries.get? id).map (fun e => (e.session, e.lastVisit)) = l.visit? id
  /-- The two indices hold the same ids, each with one tick. -/
  order_iff : ∀ tick id, c.order.get? tick = some id ↔
    ∃ e, c.entries.get? id = some e ∧ e.tick = tick
  /-- No tick is yet to come. -/
  tick_le : ∀ tick id, c.order.get? tick = some id → tick ≤ c.lastTick

theorem keeps_empty : (empty : SessionCache σ).Keeps [] where
  idsByRecency_eq := rfl
  nodup := List.nodup_nil
  visit?_eq := fun _ => rfl
  order_iff := fun tick id => by
    show none = some id ↔ ∃ e, none = some e ∧ _
    simp
  tick_le := fun tick id h => nomatch h

namespace Keeps

variable {c : SessionCache σ} {l : RecencyList σ} {id : String}

/-! ### What a cache and its list share -/

theorem mem_ids_iff (h : c.Keeps l) : id ∈ l.ids ↔ ∃ e, c.entries.get? id = some e := by
  rw [← not_iff_not, ← RecencyList.visit?_eq_none_iff, ← h.visit?_eq, Option.map_eq_none_iff,
    ← Option.not_isSome_iff_eq_none, Option.isSome_iff_exists]

theorem contains_iff (h : c.Keeps l) : c.contains id = true ↔ id ∈ l.ids := by
  rw [h.mem_ids_iff, ← Option.isSome_iff_exists]
  rfl

theorem peek?_eq (h : c.Keeps l) : c.peek? id = (l.visit? id).map (·.1) := by
  rw [← h.visit?_eq, Option.map_map]
  rfl

theorem size_eq (h : c.Keeps l) : c.size = l.length := by
  have hperm : c.entries.keys.Perm l.ids := by
    refine (List.perm_ext_iff_of_nodup c.entries.increasing.nodup h.nodup).2 fun id => ?_
    rw [← OrderedMap.keys, OrderedMap.mem_keys_iff, h.mem_ids_iff]
  have hlen := hperm.length_eq
  unfold OrderedMap.keys RecencyList.ids at hlen
  rw [List.length_map, List.length_map] at hlen
  exact hlen

/-! ### The two changes -/

/-- Taking an id out of both indices takes it out of the list. -/
theorem erase (h : c.Keeps l) {e : CacheEntry σ} (he : c.entries.get? id = some e) :
    Keeps ⟨c.entries.erase id, c.order.erase e.tick, c.lastTick⟩ (l.erase id) where
  idsByRecency_eq := by
    have hp : ∀ p ∈ c.order.entries, p.1 = e.tick ↔ p.2 = id := by
      rintro ⟨tick, id'⟩ hp
      rw [← OrderedMap.get?_eq_some_iff, h.order_iff] at hp
      obtain ⟨e', he', rfl⟩ := hp
      constructor
      · intro htick
        have h1 := (h.order_iff e.tick id).2 ⟨e, he, rfl⟩
        have h2 := (h.order_iff e.tick id').2 ⟨e', he', htick⟩
        rw [h1] at h2
        exact (Option.some.inj h2).symm
      · rintro rfl
        rw [he] at he'
        rw [Option.some.inj he']
    have hids := h.idsByRecency_eq
    unfold idsByRecency OrderedMap.values at hids ⊢
    rw [RecencyList.ids_erase, ← hids, List.filter_map, OrderedMap.entries_erase]
    congr 1
    refine List.filter_congr fun p hmem => ?_
    simp [hp p hmem]
  nodup := by
    rw [RecencyList.ids_erase]
    exact h.nodup.filter _
  visit?_eq := fun id' => by
    rw [OrderedMap.get?_erase, RecencyList.visit?_erase, ← h.visit?_eq]
    split
    · rfl
    · rfl
  order_iff := fun tick id' => by
    rw [OrderedMap.get?_erase, OrderedMap.get?_erase]
    by_cases htick : e.tick = tick
    · rw [if_pos htick]
      have hid := (h.order_iff tick id).2 ⟨e, he, htick⟩
      by_cases hid' : id = id'
      · simp [hid']
      · rw [if_neg hid', ← h.order_iff, hid]
        simp [hid']
    · rw [if_neg htick, h.order_iff]
      by_cases hid' : id = id'
      · subst hid'
        simp [he, htick]
      · rw [if_neg hid']
  tick_le := fun tick id' htick => by
    rw [OrderedMap.get?_erase] at htick
    split at htick
    · cases htick
    · exact h.tick_le tick id' htick

/-- A new id with a tick that is yet to come goes to the end of the list. -/
theorem append (h : c.Keeps l) (hid : id ∉ l.ids) (session : σ) (now : Nat) {tick : Nat}
    (htick : c.lastTick < tick) :
    Keeps ⟨c.entries.insert id ⟨session, now, tick⟩, c.order.insert tick id, tick⟩
      (l ++ [(id, session, now)]) where
  idsByRecency_eq := by
    have hlt : ∀ p ∈ c.order.entries, compare p.1 tick = .lt := by
      rintro ⟨tick', id'⟩ hp
      have hle := h.tick_le tick' id' (OrderedMap.get?_eq_some_iff.2 hp)
      exact Nat.compare_eq_lt.2 (by omega)
    have hids := h.idsByRecency_eq
    unfold idsByRecency OrderedMap.values at hids ⊢
    rw [OrderedMap.entries_insert_of_forall_lt id hlt, List.map_append, hids,
      RecencyList.ids_append]
    rfl
  nodup := by
    rw [RecencyList.ids_append]
    refine List.nodup_append.2 ⟨h.nodup, List.nodup_singleton _, ?_⟩
    rintro id' hid' _ hmem rfl
    rw [RecencyList.ids, List.map_singleton, List.mem_singleton] at hmem
    subst hmem
    exact hid hid'
  visit?_eq := fun id' => by
    rw [OrderedMap.get?_insert, RecencyList.visit?_append_of_not_mem hid, ← h.visit?_eq]
    split
    · rfl
    · rfl
  order_iff := fun tick' id' => by
    rw [OrderedMap.get?_insert, OrderedMap.get?_insert]
    by_cases ht : tick = tick'
    · subst ht
      rw [if_pos rfl, Option.some.injEq]
      by_cases hi : id = id'
      · simp [hi]
      · simp only [hi, if_false, false_iff]
        rintro ⟨e, he, het⟩
        have hle := h.tick_le tick id' ((h.order_iff tick id').2 ⟨e, he, het⟩)
        omega
    · rw [if_neg ht, h.order_iff]
      by_cases hi : id = id'
      · subst hi
        have hnone : c.entries.get? id = none := by
          rw [Option.eq_none_iff_forall_ne_some]
          intro e he
          exact hid (h.mem_ids_iff.2 ⟨e, he⟩)
        simp [hnone, ht]
      · rw [if_neg hi]
  tick_le := fun tick' id' ht => by
    rw [OrderedMap.get?_insert] at ht
    show tick' ≤ tick
    split at ht
    · omega
    · have hle := h.tick_le tick' id' ht
      omega

/-- A spent tick changes nothing else. -/
theorem later (h : c.Keeps l) {tick : Nat} (htick : c.lastTick ≤ tick) :
    Keeps ⟨c.entries, c.order, tick⟩ l where
  idsByRecency_eq := h.idsByRecency_eq
  nodup := h.nodup
  visit?_eq := h.visit?_eq
  order_iff := h.order_iff
  tick_le := fun tick' id' ht => Nat.le_trans (h.tick_le tick' id' ht) htick

/-! ### The operations -/

theorem touch (h : c.Keeps l) (id : String) (now : Nat) :
    (c.touch id now).1.Keeps (l.touch id now).1 ∧ (c.touch id now).2 = (l.touch id now).2 := by
  have hvisit := h.visit?_eq id
  unfold SessionCache.touch RecencyList.touch
  cases he : c.entries.get? id with
  | none =>
      rw [he] at hvisit
      rw [← hvisit]
      exact ⟨h.later (Nat.le_succ _), rfl⟩
  | some e =>
      rw [he] at hvisit
      rw [← hvisit]
      have hfree : id ∉ (l.erase id).ids := by
        rw [RecencyList.ids_erase]
        simp
      have happend := (h.erase he).append hfree e.session now (Nat.lt_succ_self c.lastTick)
      rw [OrderedMap.insert_erase_self] at happend
      exact ⟨happend, rfl⟩

/-- The least tick belongs to the first of the list; taking its binding out of both indices takes
out the first. -/
theorem popFirst {v : String × σ × Nat} {vs : RecencyList σ} (h : c.Keeps (v :: vs)) :
    ∃ tick rest, c.order.popFirst? = some ((tick, v.1), rest) ∧
      Keeps ⟨c.entries.erase v.1, rest, c.lastTick⟩ vs := by
  have hids := h.idsByRecency_eq
  unfold idsByRecency OrderedMap.values at hids
  cases hpop : c.order.popFirst? with
  | none =>
      rw [OrderedMap.popFirst?_eq_none_iff] at hpop
      rw [hpop] at hids
      cases hids
  | some r =>
      obtain ⟨⟨tick, oldest⟩, rest⟩ := r
      have hentries := OrderedMap.popFirst?_eq_some_iff.1 hpop
      rw [hentries] at hids
      obtain rfl : oldest = v.1 := (List.cons.inj hids).1
      have htick : c.order.get? tick = some v.1 := by
        rw [OrderedMap.get?_eq_some_iff, hentries]
        exact List.mem_cons_self
      obtain ⟨e, he, rfl⟩ := (h.order_iff tick v.1).1 htick
      have hnot : v.1 ∉ RecencyList.ids vs := (List.nodup_cons.1 h.nodup).1
      have herase := h.erase he
      rw [OrderedMap.erase_of_popFirst? hpop, RecencyList.erase,
        List.filter_cons_of_neg (by simp)] at herase
      rw [← RecencyList.erase_of_not_mem hnot]
      exact ⟨e.tick, rest, rfl, herase⟩

/-- The loop of evictions shortens the list from its front. -/
theorem evict (limit : Nat) {entries : OrderedMap String (CacheEntry σ)}
    {order : OrderedMap Nat String} {tick : Nat} (h : Keeps ⟨entries, order, tick⟩ l) :
    Keeps ⟨(evict limit entries order).1, (evict limit entries order).2.1, tick⟩
        (l.shorten limit).1 ∧
      (evict limit entries order).2.2 = (l.shorten limit).2 := by
  induction l generalizing entries order with
  | nil =>
      have hsize : entries.size = 0 := h.size_eq
      unfold SessionCache.evict RecencyList.shorten
      rw [hsize, if_neg (Nat.not_lt_zero limit), List.drop_nil, List.take_nil]
      exact ⟨h, rfl⟩
  | cons v vs ih =>
      have hsize : entries.size = vs.length + 1 := h.size_eq
      unfold SessionCache.evict RecencyList.shorten
      rw [hsize, List.length_cons]
      by_cases hlimit : limit < vs.length + 1
      · obtain ⟨first, rest, hpop, hrest⟩ := h.popFirst
        have hexcess : vs.length + 1 - limit = vs.length - limit + 1 := by omega
        rw [if_pos hlimit, hexcess, List.drop_succ_cons, List.take_succ_cons]
        split
        · next hnone =>
            rw [hpop] at hnone
            cases hnone
        · next oldest rest' hsome =>
            rw [hpop] at hsome
            cases hsome
            obtain ⟨hkeeps, hgone⟩ := ih hrest
            exact ⟨hkeeps, congrArg (v.1 :: ·) hgone⟩
      · rw [if_neg hlimit, Nat.sub_eq_zero_of_le (by omega)]
        exact ⟨h, rfl⟩

theorem insert (h : c.Keeps l) (id : String) (session : σ) (now capacity : Nat) :
    (c.insert id session now capacity).1.Keeps (l.insert id session now capacity).1 ∧
      (c.insert id session now capacity).2 = (l.insert id session now capacity).2 := by
  unfold SessionCache.insert RecencyList.insert
  by_cases hid : id ∈ l.ids
  · rw [if_pos (h.contains_iff.2 hid), if_pos hid]
    exact ⟨h, rfl⟩
  · rw [if_neg (fun hc => hid (h.contains_iff.1 hc)), if_neg hid]
    have happend := h.append hid session now (Nat.lt_succ_self c.lastTick)
    obtain ⟨hkeeps, hgone⟩ := happend.evict (max capacity 1)
    exact ⟨hkeeps, congrArg some hgone⟩

theorem remove (h : c.Keeps l) (id : String) :
    (c.remove id).1.Keeps (l.erase id) ∧ (c.remove id).2 = (l.visit? id).map (·.1) := by
  have hvisit := h.visit?_eq id
  unfold SessionCache.remove
  cases he : c.entries.get? id with
  | none =>
      rw [he] at hvisit
      rw [RecencyList.erase_of_not_mem (RecencyList.visit?_eq_none_iff.1 hvisit.symm), ← hvisit]
      exact ⟨h, rfl⟩
  | some e =>
      rw [he] at hvisit
      rw [← hvisit]
      exact ⟨h.erase he, rfl⟩

/-- Every operation on the cache does what it does on the list. -/
theorem step [DecidableEq σ] (h : c.Keeps l) (op : CacheOp σ) :
    (c.step op).1.Keeps (l.step op).1 ∧ (c.step op).2 = (l.step op).2 := by
  cases op with
  | touch id now =>
      obtain ⟨hkeeps, hfound⟩ := h.touch id now
      exact ⟨hkeeps, congrArg CacheAnswer.session hfound⟩
  | insert id session now capacity =>
      obtain ⟨hkeeps, hgone⟩ := h.insert id session now capacity
      exact ⟨hkeeps, congrArg CacheAnswer.evicted hgone⟩
  | remove id =>
      obtain ⟨hkeeps, hfound⟩ := h.remove id
      exact ⟨hkeeps, congrArg CacheAnswer.session hfound⟩
  | removeIfSame id session =>
      have hpeek : c.peek? id = (l.visit? id).map (·.1) := h.peek?_eq
      simp only [SessionCache.step, RecencyList.step, SessionCache.removeIfSame]
      by_cases hsame : c.peek? id = some session
      · rw [if_pos hsame, if_pos (hpeek.symm.trans hsame)]
        exact ⟨(h.remove id).1, rfl⟩
      · rw [if_neg hsame, if_neg (fun hv => hsame (hpeek.trans hv))]
        exact ⟨h, rfl⟩

end Keeps

/-! ### Runs -/

/-- Every run on the cache does what it does on the list. -/
theorem Keeps.run [DecidableEq σ] {c : SessionCache σ} {l : RecencyList σ} (h : c.Keeps l)
    (ops : List (CacheOp σ)) :
    (runOps SessionCache.step c ops).1.Keeps (runOps RecencyList.step l ops).1 ∧
      (runOps SessionCache.step c ops).2 = (runOps RecencyList.step l ops).2 := by
  induction ops generalizing c l with
  | nil => exact ⟨h, rfl⟩
  | cons op ops ih =>
      obtain ⟨hstep, hanswer⟩ := h.step op
      obtain ⟨hrun, hanswers⟩ := ih hstep
      rw [runOps_cons, runOps_cons, hanswer, hanswers]
      exact ⟨hrun, rfl⟩

/-- An operation spends at most one tick. -/
theorem lastTick_step_le [DecidableEq σ] (c : SessionCache σ) (op : CacheOp σ) :
    (c.step op).1.lastTick ≤ c.lastTick + 1 := by
  cases op with
  | touch id now =>
      simp only [SessionCache.step, SessionCache.touch]
      split
      · exact Nat.le_refl _
      · exact Nat.le_refl _
  | insert id session now capacity =>
      simp only [SessionCache.step, SessionCache.insert]
      split
      · exact Nat.le_succ _
      · exact Nat.le_refl _
  | remove id =>
      simp only [SessionCache.step, SessionCache.remove]
      split
      · exact Nat.le_succ _
      · exact Nat.le_succ _
  | removeIfSame id session =>
      simp only [SessionCache.step, SessionCache.removeIfSame, SessionCache.remove]
      split
      · split
        · exact Nat.le_succ _
        · exact Nat.le_succ _
      · exact Nat.le_succ _

theorem lastTick_run_le [DecidableEq σ] (c : SessionCache σ) (ops : List (CacheOp σ)) :
    (runOps SessionCache.step c ops).1.lastTick ≤ c.lastTick + ops.length := by
  induction ops generalizing c with
  | nil => exact Nat.le_refl _
  | cons op ops ih =>
      have hstep := c.lastTick_step_le op
      have hrun := ih (c.step op).1
      rw [runOps_cons, List.length_cons]
      exact Nat.le_trans hrun (by omega)

/-- **The cache is a list by recency.**  On any operations from the empty cache on, with any
capacities, it answers as the list does and holds the same sessions, in the same order, under two
indices that agree; no tick exceeds the number of operations.  An id that was to be inserted is live
afterwards, and whenever the insertion answers with the ids that had to go, the capacity is kept. -/
theorem run_eq_recency [DecidableEq σ] (ops : List (CacheOp σ)) :
    let c := (runOps SessionCache.step (empty : SessionCache σ) ops).1
    let l := (runOps RecencyList.step ([] : RecencyList σ) ops).1
    (runOps SessionCache.step (empty : SessionCache σ) ops).2 =
        (runOps RecencyList.step ([] : RecencyList σ) ops).2 ∧
      c.Keeps l ∧ c.size = l.length ∧ (∀ id, c.contains id = true ↔ id ∈ l.ids) ∧
      c.lastTick ≤ ops.length ∧
      ∀ id session now capacity,
        (c.insert id session now capacity).1.contains id = true ∧
          ∀ gone, (c.insert id session now capacity).2 = some gone →
            (c.insert id session now capacity).1.size ≤ max capacity 1 := by
  intro c l
  obtain ⟨hkeeps, hanswers⟩ := keeps_empty.run ops
  have htick := lastTick_run_le empty ops
  refine ⟨hanswers, hkeeps, hkeeps.size_eq, fun id => hkeeps.contains_iff, ?_, ?_⟩
  · rw [← Nat.zero_add ops.length]
    exact htick
  · intro id session now capacity
    obtain ⟨hinsert, hanswer⟩ := hkeeps.insert id session now capacity
    refine ⟨hinsert.contains_iff.2 (l.mem_ids_insert id session now capacity), fun gone hgone => ?_⟩
    have hid : id ∉ l.ids := RecencyList.not_mem_ids_of_insert (hanswer.symm.trans hgone)
    rw [hinsert.size_eq]
    exact RecencyList.length_insert_le hid session now capacity

/-- Two sessions, inserted while there was room for ten. -/
def twoSessions : List (CacheOp Nat) := [.insert "a" 1 0 10, .insert "b" 2 1 10]

/-- A taken id is refused before the capacity is looked at, so more sessions than that may stay. -/
theorem insert_taken_over_capacity :
    let c := (runOps SessionCache.step (empty : SessionCache Nat) twoSessions).1
    let after := c.insert "a" 1 2 1
    after.2 = none ∧ after.1.idsByRecency = ["a", "b"] ∧ ¬after.1.size ≤ max 1 1 := by
  decide +kernel

end SessionCache

end DeviceAccess
