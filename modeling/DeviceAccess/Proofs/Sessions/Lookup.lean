import Mathlib.Data.List.Induction
import DeviceAccess.Proofs.Ordered
import DeviceAccess.Sessions.Manager

/-!
# Which sessions an operation leaves

What is live after an operation on the session cache, or after a sweep over the sessions, was live
before and is the same session, but for the session that was put in or changed.  Nothing here speaks
of recency: of evictions only this is used, that they put nothing in.
-/

namespace DeviceAccess

namespace SessionCache

variable {σ : Type} {c : SessionCache σ} {id id' : String} {s s' : σ}

theorem peek?_eq_some_iff :
    c.peek? id = some s ↔ ∃ e, c.entries.get? id = some e ∧ e.session = s := by
  unfold peek?
  rw [Option.map_eq_some_iff]

/-- A use finds the session that is live under the id. -/
theorem touch_snd (c : SessionCache σ) (id : String) (now : Nat) :
    (c.touch id now).2 = c.peek? id := by
  unfold touch peek?
  cases c.entries.get? id with
  | none => rfl
  | some e => rfl

/-- A use changes no session. -/
theorem peek?_touch (c : SessionCache σ) (id : String) (now : Nat) (id' : String) :
    (c.touch id now).1.peek? id' = c.peek? id' := by
  unfold touch peek?
  cases he : c.entries.get? id with
  | none => rfl
  | some e =>
      show ((c.entries.insert id _).get? id').map _ = _
      rw [OrderedMap.get?_insert]
      split
      · next h =>
          subst h
          rw [he]
          rfl
      · rfl

/-- A use leaves the entry of its own id with its instant, and the other entries as they were. -/
theorem get?_of_touch {now : Nat} {e : CacheEntry σ}
    (h : (c.touch id now).1.entries.get? id' = some e) :
    id = id' ∧ c.peek? id = some e.session ∧ e.lastVisit = now ∨
      id ≠ id' ∧ c.entries.get? id' = some e := by
  unfold touch at h
  unfold peek?
  cases hget : c.entries.get? id with
  | none =>
      rw [hget] at h
      refine .inr ⟨?_, h⟩
      rintro rfl
      cases hget.symm.trans h
  | some e' =>
      rw [hget] at h
      have h : (c.entries.insert id _).get? id' = some e := h
      rw [OrderedMap.get?_insert] at h
      split at h
      · next hid =>
          cases h
          exact .inl ⟨hid, rfl, rfl⟩
      · next hid => exact .inr ⟨hid, h⟩

/-- Evictions put nothing in. -/
theorem get?_of_evict {limit : Nat} {entries : OrderedMap String (CacheEntry σ)}
    {order : OrderedMap Nat String} {e : CacheEntry σ}
    (h : (evict limit entries order).1.get? id = some e) : entries.get? id = some e := by
  induction entries, order using evict.induct limit with
  | case1 entries order hlimit hpop =>
      unfold evict at h
      rw [if_pos hlimit] at h
      split at h
      · exact h
      · next hsome =>
          rw [hpop] at hsome
          cases hsome
  | case2 entries order hlimit oldest rest hpop entries' order' ids hcall ih =>
      unfold evict at h
      rw [if_pos hlimit] at h
      split at h
      · next hnone =>
          rw [hpop] at hnone
          cases hnone
      · next oldest' rest' hsome =>
          rw [hpop] at hsome
          cases hsome
          have herase := ih h
          rw [OrderedMap.get?_erase] at herase
          split at herase
          · cases herase
          · exact herase
  | case3 entries order hlimit =>
      unfold evict at h
      rw [if_neg hlimit] at h
      exact h

/-- After an insertion an entry was there before or is the one inserted, under an id that was
free. -/
theorem get?_of_insert {now capacity : Nat} {e : CacheEntry σ}
    (h : (c.insert id s now capacity).1.entries.get? id' = some e) :
    c.entries.get? id' = some e ∧ (c.contains id = false → id' ≠ id) ∨
      c.contains id = false ∧ id' = id ∧ e = ⟨s, now, c.lastTick + 1⟩ := by
  unfold insert at h
  cases hfree : c.contains id with
  | true =>
      rw [hfree, if_pos rfl] at h
      exact .inl ⟨h, Bool.noConfusion⟩
  | false =>
      rw [hfree, if_neg Bool.false_ne_true] at h
      have hget := get?_of_evict h
      rw [OrderedMap.get?_insert] at hget
      split at hget
      · next hid => exact .inr ⟨rfl, hid.symm, (Option.some.inj hget).symm⟩
      · next hid => exact .inl ⟨hget, fun _ heq => hid heq.symm⟩

/-- After an insertion a session was live before or is the one inserted, under an id that was
free. -/
theorem peek?_of_insert {now capacity : Nat}
    (h : (c.insert id s now capacity).1.peek? id' = some s') :
    c.peek? id' = some s' ∨ (c.contains id = false ∧ id' = id ∧ s' = s) := by
  obtain ⟨e, he, rfl⟩ := peek?_eq_some_iff.1 h
  obtain ⟨hget, -⟩ | ⟨hfree, hid, rfl⟩ := get?_of_insert he
  · exact .inl (peek?_eq_some_iff.2 ⟨e, hget, rfl⟩)
  · exact .inr ⟨hfree, hid, rfl⟩

/-- A removal concerns one entry. -/
theorem get?_remove (c : SessionCache σ) (id id' : String) :
    (c.remove id).1.entries.get? id' = if id = id' then none else c.entries.get? id' := by
  unfold remove
  cases he : c.entries.get? id with
  | none =>
      show c.entries.get? id' = _
      split
      · next hid => rw [← hid, he]
      · rfl
  | some e => exact OrderedMap.get?_erase c.entries id id'

/-- A removal leaves the other entries only. -/
theorem get?_of_remove {e : CacheEntry σ} (h : (c.remove id).1.entries.get? id' = some e) :
    id' ≠ id ∧ c.entries.get? id' = some e := by
  rw [get?_remove] at h
  split at h
  · cases h
  · next hne => exact ⟨fun heq => hne heq.symm, h⟩

/-- A removal leaves the other sessions only. -/
theorem peek?_of_remove (h : (c.remove id).1.peek? id' = some s) :
    id' ≠ id ∧ c.peek? id' = some s := by
  obtain ⟨e, he, hs⟩ := peek?_eq_some_iff.1 h
  obtain ⟨hne, hget⟩ := get?_of_remove he
  exact ⟨hne, peek?_eq_some_iff.2 ⟨e, hget, hs⟩⟩

/-- A session removed only if the id stands for it leaves all other pairs of ids and sessions. -/
theorem peek?_removeIfSame_eq_some_iff [DecidableEq σ] :
    (c.removeIfSame id s).1.peek? id' = some s' ↔
      c.peek? id' = some s' ∧ (id', s') ≠ (id, s) := by
  unfold removeIfSame
  by_cases hsame : c.peek? id = some s
  · rw [if_pos hsame]
    constructor
    · intro h
      obtain ⟨hne, hlive⟩ := peek?_of_remove h
      exact ⟨hlive, fun heq => hne (congrArg Prod.fst heq)⟩
    · rintro ⟨hlive, hother⟩
      have hne : id ≠ id' := by
        rintro rfl
        exact hother (congrArg _ (Option.some.inj (hlive.symm.trans hsame)))
      unfold peek? at hlive ⊢
      rwa [get?_remove, if_neg hne]
  · rw [if_neg hsame]
    refine (and_iff_left_of_imp fun hlive heq => hsame ?_).symm
    obtain ⟨rfl, rfl⟩ := Prod.mk.inj heq
    exact hlive

/-- A snapshot shows the live sessions. -/
theorem mem_snapshot_iff : (id, s) ∈ c.snapshot ↔ c.peek? id = some s := by
  unfold snapshot
  rw [List.mem_map, peek?_eq_some_iff]
  constructor
  · rintro ⟨⟨id, e⟩, he, heq⟩
    obtain ⟨rfl, rfl⟩ := Prod.mk.inj heq
    exact ⟨e, OrderedMap.get?_eq_some_iff.2 he, rfl⟩
  · rintro ⟨e, he, rfl⟩
    exact ⟨(id, e), OrderedMap.get?_eq_some_iff.1 he, rfl⟩

/-- A change concerns one session. -/
theorem peek?_update (c : SessionCache σ) (id : String) (f : σ → σ) (id' : String) :
    (c.update id f).peek? id' = if id = id' then (c.peek? id).map f else c.peek? id' := by
  unfold update
  cases he : c.entries.get? id with
  | none =>
      have hnone : c.peek? id = none := by rw [peek?, he, Option.map_none]
      show c.peek? id' = _
      split
      · next h =>
          subst h
          rw [hnone, Option.map_none]
      · rfl
  | some e =>
      show ((c.entries.insert id _).get? id').map _ = _
      rw [OrderedMap.get?_insert, peek?, he]
      split
      · rfl
      · rfl

end SessionCache

namespace SessionManager

variable {m : SessionManager} {id : String} {s : Session}

theorem find_eq (m : SessionManager) (id : String) (now : Nat) :
    m.find id now = ({ m with cache := (m.cache.touch id now).1 }, m.cache.peek? id) := by
  rw [← SessionCache.touch_snd m.cache id now]
  rfl

theorem peek?_of_close {id' : String} (h : (m.close id).1.cache.peek? id' = some s) :
    m.cache.peek? id' = some s := by
  unfold close at h
  cases hremove : m.cache.remove id with
  | mk cache found =>
      rw [hremove] at h
      cases found with
      | none => exact h
      | some s' =>
          have hrest : (m.cache.remove id).1.peek? id' = some s := by
            rw [hremove]
            exact h
          exact (SessionCache.peek?_of_remove hrest).2

/-! ### Sweeps -/

theorem closeAll_concat (m : SessionManager) (es : List (String × Session)) (e : String × Session) :
    (m.closeAll (es ++ [e])).1 = ((m.closeAll es).1.closeIfSame e).1 := by
  unfold closeAll
  rw [List.foldl_append]
  rfl

/-- What is live after some sessions were closed was live before and is none of these. -/
theorem peek?_closeAll_eq_some_iff {es : List (String × Session)} :
    (m.closeAll es).1.cache.peek? id = some s ↔ m.cache.peek? id = some s ∧ (id, s) ∉ es := by
  induction es using List.reverseRecOn with
  | nil => exact (and_iff_left List.not_mem_nil).symm
  | append_singleton es e ih =>
      rw [closeAll_concat]
      refine SessionCache.peek?_removeIfSame_eq_some_iff.trans ?_
      rw [ih, List.mem_append, List.mem_singleton, not_or, and_assoc]

theorem peek?_of_closeAll {l : List (String × Session)}
    (h : (m.closeAll l).1.cache.peek? id = some s) : m.cache.peek? id = some s :=
  (peek?_closeAll_eq_some_iff.1 h).1

theorem peek?_of_closeIdle {now timeout : Nat}
    (h : (m.closeIdle now timeout).1.cache.peek? id = some s) : m.cache.peek? id = some s :=
  peek?_of_closeAll h

theorem peek?_of_refreshCertificate {files : String → Except Fault (Option String)}
    {hash : String → String} {source : SweepSource} {name : String}
    (h : (m.refreshCertificate files hash source name).1.cache.peek? id = some s) :
    m.cache.peek? id = some s := by
  unfold refreshCertificate at h
  cases hfile : files name with
  | error e =>
      rw [hfile] at h
      exact peek?_of_closeAll h
  | ok text? =>
      rw [hfile] at h
      cases text? with
      | none => exact peek?_of_closeAll h
      | some text =>
          simp only at h
          split at h
          · exact peek?_of_closeAll h
          · split at h
            · exact h
            · exact peek?_of_closeAll h
            · exact peek?_of_closeAll h

/-- A refresh opens and changes no session. -/
theorem peek?_of_refresh {files : String → Except Fault (Option String)} {hash : String → String}
    {source : SweepSource} (h : (m.refresh files hash source).1.cache.peek? id = some s) :
    m.cache.peek? id = some s := by
  unfold refresh at h
  generalize m.hashes = names at h
  generalize ([] : List Question) = asked at h
  induction names generalizing m asked with
  | nil => exact h
  | cons name names ih =>
      rw [List.foldl_cons] at h
      exact peek?_of_refreshCertificate (ih _ h)

end SessionManager

end DeviceAccess
