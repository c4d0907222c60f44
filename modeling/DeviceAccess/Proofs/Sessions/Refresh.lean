import Mathlib.Data.List.Induction
import DeviceAccess.Proofs.Sessions.Lookup
import DeviceAccess.Proofs.Sessions.Recency
import DeviceAccess.Sessions.Manager

/-!
# Which sessions survive a refresh

A refresh goes over the certificates of the live sessions, one after the other.  Whether a session
survives depends on the session alone, on the stored text of its certificate and on the answers of the
identity source (`SessionManager.Survives`), and so every step filters the list by recency: the check of
one certificate drops those of its sessions that do not survive (`Keeps.refreshCertificate`).  Filters
commute, so the certificates may be visited in any order (`SessionManager.refresh_survivors`).
-/

namespace DeviceAccess

/-- The certificate text that a question is about. -/
def Question.text? : Question → Option String
  | .certificate text => some text
  | .attachment _ _ => none

namespace RecencyList

variable {σ : Type} {l : RecencyList σ}

theorem visit?_eq_some_iff (h : l.ids.Nodup) {id : String} {v : σ × Nat} :
    l.visit? id = some v ↔ (id, v) ∈ l :=
  OrderedMap.find?_eq_some_iff_mem h

end RecencyList

namespace SessionCache.Keeps

variable {σ : Type} {c : SessionCache σ} {l : RecencyList σ}

theorem peek?_eq_some_iff (h : c.Keeps l) {id : String} {s : σ} :
    c.peek? id = some s ↔ ∃ now, (id, s, now) ∈ l := by
  rw [h.peek?_eq, Option.map_eq_some_iff]
  constructor
  · rintro ⟨⟨s, now⟩, hvisit, rfl⟩
    exact ⟨now, (RecencyList.visit?_eq_some_iff h.nodup).1 hvisit⟩
  · rintro ⟨now, hmem⟩
    exact ⟨(s, now), (RecencyList.visit?_eq_some_iff h.nodup).2 hmem, rfl⟩

/-- To remove a session that an id stands for is to filter the list. -/
theorem removeIfSame [DecidableEq σ] (h : c.Keeps l) (id : String) (s : σ) :
    (c.removeIfSame id s).1.Keeps (l.filter fun v => (v.1, v.2.1) ≠ (id, s)) := by
  unfold SessionCache.removeIfSame
  by_cases hsame : c.peek? id = some s
  · have hfilter : l.filter (fun v => (v.1, v.2.1) ≠ (id, s)) = l.erase id := by
      refine List.filter_congr fun v hv => ?_
      obtain ⟨id', s', now⟩ := v
      have hlive := h.peek?_eq_some_iff.2 ⟨now, hv⟩
      by_cases hid : id' = id
      · subst hid
        obtain rfl := Option.some.inj (hlive.symm.trans hsame)
        simp
      · simp [hid]
    rw [if_pos hsame, hfilter]
    exact (h.remove id).1
  · have hfilter : l.filter (fun v => (v.1, v.2.1) ≠ (id, s)) = l := by
      refine List.filter_eq_self.2 fun v hv => decide_eq_true fun heq => ?_
      obtain ⟨rfl, rfl⟩ := Prod.mk.inj heq
      exact hsame (h.peek?_eq_some_iff.2 ⟨v.2.2, hv⟩)
    rw [if_neg hsame, hfilter]
    exact h

/-- To remove sessions one after the other is to filter the list. -/
theorem removeEach [DecidableEq σ] (h : c.Keeps l) (es : List (String × σ)) :
    (es.foldl (fun c e => (c.removeIfSame e.1 e.2).1) c).Keeps
      (l.filter fun v => (v.1, v.2.1) ∉ es) := by
  induction es using List.reverseRecOn with
  | nil =>
      rw [List.filter_eq_self.2 fun v _ => decide_eq_true List.not_mem_nil]
      exact h
  | append_singleton es e ih =>
      have hremove := ih.removeIfSame e.1 e.2
      rw [List.filter_filter] at hremove
      have hfilter : l.filter (fun v => (v.1, v.2.1) ∉ es ++ [e]) =
          l.filter fun v => decide ((v.1, v.2.1) ≠ e) && decide ((v.1, v.2.1) ∉ es) := by
        refine List.filter_congr fun v _ => ?_
        rw [← Bool.decide_and, decide_eq_decide, List.mem_append, List.mem_singleton, not_or, and_comm]
      rw [List.foldl_append, hfilter]
      exact hremove

end SessionCache.Keeps

namespace SessionManager

variable {m : SessionManager} {l : RecencyList Session}

/-! ### Closing -/

theorem capacity_closeAll (m : SessionManager) (es : List (String × Session)) :
    (m.closeAll es).1.capacity = m.capacity := by
  induction es using List.reverseRecOn with
  | nil => rfl
  | append_singleton es e ih =>
      rw [closeAll_concat]
      exact ih

/-- What closing sessions does to the cache. -/
theorem cache_closeAll_eq_foldl (m : SessionManager) (es : List (String × Session)) :
    (m.closeAll es).1.cache = es.foldl (fun c e => (c.removeIfSame e.1 e.2).1) m.cache := by
  induction es using List.reverseRecOn with
  | nil => rfl
  | append_singleton es e ih =>
      rw [closeAll_concat, List.foldl_append, ← ih]
      rfl

/-- To close sessions is to filter the list. -/
theorem keeps_closeAll (h : m.cache.Keeps l) (es : List (String × Session)) :
    (m.closeAll es).1.cache.Keeps (l.filter fun v => (v.1, v.2.1) ∉ es) := by
  rw [cache_closeAll_eq_foldl]
  exact h.removeEach es

/-- If the sessions to close are those that do not have a property, those that have it are left. -/
theorem keeps_closeAll_of_iff (h : m.cache.Keeps l) {es : List (String × Session)}
    (keep : Session → Prop) [DecidablePred keep]
    (hes : ∀ id s now, (id, s, now) ∈ l → ((id, s) ∈ es ↔ ¬keep s)) :
    (m.closeAll es).1.cache.Keeps (l.filter fun v => keep v.2.1) := by
  have hfilter : l.filter (fun v => keep v.2.1) = l.filter fun v => (v.1, v.2.1) ∉ es := by
    refine List.filter_congr fun v hv => ?_
    rw [decide_eq_decide, hes v.1 v.2.1 v.2.2 hv, not_not]
  rw [hfilter]
  exact keeps_closeAll h es

/-! ### Surviving -/

section

variable (files : String → Except Fault (Option String)) (hash : String → String)

/-- The stored text of a certificate, if it is there and still has the hash it is stored under. -/
def storedText? (name : String) : Option String :=
  match files name with
  | .ok (some text) => if hash text = name then some text else none
  | .ok none | .error _ => none

/-- A certificate with this text is not reported inactive, and the thing of a session, if it has one,
is not reported detached from it; a question that fails is no such report. -/
def Confirmed (source : IdentitySource) (text : String) (s : Session) : Prop :=
  (∃ e, source.activeId text = .error e) ∨ ∃ id, source.activeId text = .ok (some id) ∧
    ∀ thing, s.thing? = some thing →
      source.isAttached thing id = .ok true ∨ ∃ e, source.isAttached thing id = .error e

/-- The session survives a refresh: it is a component's, or the stored text of its certificate can be
read, has its hash and is confirmed. -/
def Survives (source : IdentitySource) (s : Session) : Prop :=
  s.isComponent = true ∨ ∃ certificate text, s.certificate? = some certificate ∧
    files certificate.hash = .ok (some text) ∧ hash text = certificate.hash ∧
    Confirmed source text s

end

variable {files : String → Except Fault (Option String)} {hash : String → String}
  {source : IdentitySource} {name text : String} {s : Session}

theorem storedText?_eq_some_iff :
    storedText? files hash name = some text ↔ files name = .ok (some text) ∧ hash text = name := by
  unfold storedText?
  split
  · next found hfile =>
      rw [hfile, Option.ite_none_right_eq_some, Except.ok.injEq, Option.some.injEq]
      constructor
      · rintro ⟨hhash, rfl⟩
        exact ⟨rfl, hhash⟩
      · rintro ⟨rfl, hhash⟩
        exact ⟨hhash, rfl⟩
  · next hfile => simp [hfile]
  · next hfile => simp [hfile]

theorem hashOf_eq_some_iff :
    hashOf s = some name ↔ ∃ certificate, s.certificate? = some certificate ∧
      certificate.hash = name :=
  Option.map_eq_some_iff

theorem confirmed_of_activeId_eq_error {e : Fault} (h : source.activeId text = .error e) :
    Confirmed source text s :=
  .inl ⟨e, h⟩

theorem not_confirmed_of_activeId_eq_none (h : source.activeId text = .ok none) :
    ¬Confirmed source text s := by
  rintro (⟨e, he⟩ | ⟨id, hid, -⟩)
  · cases h.symm.trans he
  · cases h.symm.trans hid

/-- A session without a certificate survives. -/
theorem survives_of_hashOf_eq_none (h : hashOf s = none) : Survives files hash source s := by
  unfold hashOf Session.certificate? at h
  left
  unfold Session.isComponent
  cases hs : s.basis with
  | certificate c =>
      rw [hs] at h
      cases h
  | component => rfl

/-- A session of a certificate survives if there is a stored text and it is confirmed. -/
theorem survives_iff_of_hashOf (h : hashOf s = some name) : Survives files hash source s ↔
    ∃ text, storedText? files hash name = some text ∧ Confirmed source text s := by
  obtain ⟨certificate, hcertificate, rfl⟩ := hashOf_eq_some_iff.1 h
  have hbasis : s.isComponent = false := by
    unfold Session.certificate? at hcertificate
    unfold Session.isComponent
    cases hs : s.basis with
    | certificate c => rfl
    | component =>
        rw [hs] at hcertificate
        cases hcertificate
  unfold Survives
  simp only [hbasis, hcertificate, Bool.false_eq_true, false_or, Option.some.injEq,
    storedText?_eq_some_iff]
  constructor
  · rintro ⟨_, text, rfl, hfile, hhash, hconfirmed⟩
    exact ⟨text, ⟨hfile, hhash⟩, hconfirmed⟩
  · rintro ⟨text, ⟨hfile, hhash⟩, hconfirmed⟩
    exact ⟨certificate, text, rfl, hfile, hhash, hconfirmed⟩

theorem not_survives_of_storedText?_eq_none (h : hashOf s = some name)
    (htext : storedText? files hash name = none) : ¬Survives files hash source s := by
  rw [survives_iff_of_hashOf h]
  rintro ⟨text, htext', -⟩
  cases htext.symm.trans htext'

theorem survives_iff_confirmed (h : hashOf s = some name)
    (htext : storedText? files hash name = some text) :
    Survives files hash source s ↔ Confirmed source text s := by
  rw [survives_iff_of_hashOf h]
  constructor
  · rintro ⟨_, htext', hconfirmed⟩
    obtain rfl := Option.some.inj (htext.symm.trans htext')
    exact hconfirmed
  · intro hconfirmed
    exact ⟨text, htext, hconfirmed⟩

/-- A thing counts as detached if the identity source denies that it is attached. -/
theorem isDetached_fst_iff {source : SweepSource} {sessionId id : String} :
    (isDetached source sessionId id s).1 = true ↔
      ∃ thing, s.thing? = some thing ∧ source.isAttached sessionId thing id = .ok false := by
  unfold isDetached
  cases s.thing? with
  | none => simp
  | some thing =>
      simp only [Option.some.injEq, exists_eq_left']
      cases source.isAttached sessionId thing id with
      | error e => simp
      | ok attached => simp

theorem isDetached_snd (source : SweepSource) (sessionId id : String) (s : Session) :
    (isDetached source sessionId id s).2 = s.thing?.toList.map fun thing => .attachment thing id := by
  unfold isDetached
  cases s.thing? with
  | none => rfl
  | some thing => rfl

theorem text?_of_mem_isDetached {source : SweepSource} {sessionId id : String} {question : Question}
    (h : question ∈ (isDetached source sessionId id s).2) : question.text? = none := by
  rw [isDetached_snd] at h
  obtain ⟨thing, -, rfl⟩ := List.mem_map.1 h
  rfl

/-- A session of an active certificate is confirmed unless its thing is detached. -/
theorem confirmed_iff_isDetached {id : String} (h : source.activeId text = .ok (some id))
    (sessionId : String) :
    Confirmed source text s ↔ (isDetached source.steady sessionId id s).1 = false := by
  rw [← Bool.not_eq_true, isDetached_fst_iff]
  constructor
  · rintro (⟨e, he⟩ | ⟨_, hid, hthings⟩) ⟨thing, hthing, hdetached⟩
    · cases h.symm.trans he
    · obtain rfl := Option.some.inj (Except.ok.inj (h.symm.trans hid))
      obtain hattached | ⟨e, he⟩ := hthings thing hthing
      · cases hdetached.symm.trans hattached
      · cases hdetached.symm.trans he
  · intro hdetached
    refine .inr ⟨id, h, fun thing hthing => ?_⟩
    cases hattached : source.isAttached thing id with
    | error e => exact .inr ⟨e, rfl⟩
    | ok attached =>
        cases attached with
        | true => exact .inl rfl
        | false => exact absurd ⟨thing, hthing, hattached⟩ hdetached

instance : Decidable (Confirmed source text s) :=
  match h : source.activeId text with
  | .error _ => isTrue (confirmed_of_activeId_eq_error h)
  | .ok none => isFalse (not_confirmed_of_activeId_eq_none h)
  | .ok (some id) => decidable_of_iff _ (confirmed_iff_isDetached h id).symm

instance : Decidable (Survives files hash source s) :=
  match h : hashOf s with
  | none => isTrue (survives_of_hashOf_eq_none h)
  | some name =>
    match htext : storedText? files hash name with
    | none => isFalse (not_survives_of_storedText?_eq_none h htext)
    | some _ => decidable_of_iff _ (survives_iff_confirmed h htext).symm

/-! ### One certificate -/

/-- The live sessions of a certificate. -/
def sessionsOf (m : SessionManager) (name : String) : List (String × Session) :=
  m.cache.snapshot.filter fun e => hashOf e.2 = some name

theorem mem_sessionsOf_iff {id : String} :
    (id, s) ∈ m.sessionsOf name ↔ m.cache.peek? id = some s ∧ hashOf s = some name := by
  unfold sessionsOf
  rw [List.mem_filter, SessionCache.mem_snapshot_iff, decide_eq_true_eq]

theorem mem_sessionsOf_iff_of_mem (h : m.cache.Keeps l) {id : String} {now : Nat}
    (hv : (id, s, now) ∈ l) : (id, s) ∈ m.sessionsOf name ↔ hashOf s = some name := by
  rw [mem_sessionsOf_iff, and_iff_right (h.peek?_eq_some_iff.2 ⟨now, hv⟩)]

/-- A certificate without a text to ask about loses all its sessions, and nothing is asked. -/
theorem refreshCertificate_of_storedText?_eq_none {source : SweepSource}
    (h : storedText? files hash name = none) :
    m.refreshCertificate files hash source name = ((m.closeAll (m.sessionsOf name)).1, []) := by
  unfold storedText? at h
  unfold refreshCertificate
  split at h
  · next text hfile =>
      rw [hfile]
      refine if_pos fun heq => ?_
      rw [if_pos heq] at h
      cases h
  · next hfile =>
      rw [hfile]
      rfl
  · next hfile =>
      rw [hfile]
      rfl

/-- A certificate with a text is asked about once; what follows depends on the answer. -/
theorem refreshCertificate_of_storedText?_eq_some {source : SweepSource}
    (h : storedText? files hash name = some text) :
    m.refreshCertificate files hash source name =
      match source.activeId text with
      | .error _ => (m, [.certificate text])
      | .ok none => ((m.closeAll (m.sessionsOf name)).1, [.certificate text])
      | .ok (some id) =>
        ((m.closeAll ((m.sessionsOf name).filter fun e => (isDetached source e.1 id e.2).1)).1,
          .certificate text :: (m.sessionsOf name).flatMap fun e => (isDetached source e.1 id e.2).2) := by
  obtain ⟨hfile, hhash⟩ := storedText?_eq_some_iff.1 h
  unfold refreshCertificate
  rw [hfile]
  refine (if_neg (not_not.2 hhash)).trans ?_
  cases source.activeId text with
  | error e => rfl
  | ok id? =>
      cases id? with
      | none => rfl
      | some id =>
          refine Prod.ext ?_ ?_
          · have hdetached : ((m.sessionsOf name).map fun e => (e, isDetached source e.1 id e.2)).filterMap
                (fun c => if c.2.1 then some c.1 else none) =
                (m.sessionsOf name).filter fun e => (isDetached source e.1 id e.2).1 := by
              rw [List.filterMap_map, ← List.filterMap_eq_filter]
              rfl
            exact congrArg (fun es => (m.closeAll es).1) hdetached
          · show _ :: List.flatMap _ (List.map _ _) = _
            rw [List.flatMap_map]
            rfl

theorem capacity_refreshCertificate (files : String → Except Fault (Option String))
    (hash : String → String) (source : SweepSource) (m : SessionManager) (name : String) :
    (m.refreshCertificate files hash source name).1.capacity = m.capacity := by
  cases htext : storedText? files hash name with
  | none =>
      rw [refreshCertificate_of_storedText?_eq_none htext]
      exact capacity_closeAll m _
  | some text =>
      rw [refreshCertificate_of_storedText?_eq_some htext]
      cases source.activeId text with
      | error e => rfl
      | ok id? =>
          cases id? with
          | none => exact capacity_closeAll m _
          | some id => exact capacity_closeAll m _

/-- The check of a certificate drops those of its sessions that do not survive; it asks about the
certificate once, if there is a text to ask about. -/
theorem keeps_refreshCertificate (files : String → Except Fault (Option String))
    (hash : String → String) (source : IdentitySource) (h : m.cache.Keeps l) (name : String) :
    let r := m.refreshCertificate files hash source.steady name
    r.1.cache.Keeps (l.filter fun v => hashOf v.2.1 = some name → Survives files hash source v.2.1) ∧
      r.2.filterMap Question.text? = (storedText? files hash name).toList := by
  -- what is closed are always those sessions of the certificate that do not survive
  have hclosed (es : List (String × Session)) (hes : ∀ id s now, (id, s, now) ∈ l →
      ((id, s) ∈ es ↔ hashOf s = some name ∧ ¬Survives files hash source s)) :
      (m.closeAll es).1.cache.Keeps
        (l.filter fun v => hashOf v.2.1 = some name → Survives files hash source v.2.1) := by
    refine keeps_closeAll_of_iff h
      (fun s => hashOf s = some name → Survives files hash source s) fun id s now hv => ?_
    rw [hes id s now hv, Classical.not_imp]
  have hclosedAll (hnone : ∀ s, hashOf s = some name → ¬Survives files hash source s) :=
    hclosed (m.sessionsOf name) fun id s now hv => by
      rw [mem_sessionsOf_iff_of_mem h hv]
      exact (and_iff_left_of_imp (hnone s)).symm
  cases htext : storedText? files hash name with
  | none =>
      rw [refreshCertificate_of_storedText?_eq_none htext]
      exact ⟨hclosedAll fun s hs => not_survives_of_storedText?_eq_none hs htext, rfl⟩
  | some text =>
      rw [refreshCertificate_of_storedText?_eq_some htext]
      cases hid : source.activeId text with
      | error e =>
          have hall : l.filter (fun v => hashOf v.2.1 = some name →
              Survives files hash source v.2.1) = l :=
            List.filter_eq_self.2 fun v _ => decide_eq_true fun hs =>
              (survives_iff_confirmed hs htext).2 (confirmed_of_activeId_eq_error hid)
          rw [hall, show source.steady.activeId text = .error e from hid]
          exact ⟨h, rfl⟩
      | ok id? =>
          cases id? with
          | none =>
              rw [show source.steady.activeId text = .ok none from hid]
              refine ⟨hclosedAll fun s hs => ?_, rfl⟩
              rw [survives_iff_confirmed hs htext]
              exact not_confirmed_of_activeId_eq_none hid
          | some id =>
              rw [show source.steady.activeId text = .ok (some id) from hid]
              refine ⟨hclosed _ fun sessionId s now hv => ?_, ?_⟩
              · rw [List.mem_filter, mem_sessionsOf_iff_of_mem h hv]
                refine and_congr_right fun hs => ?_
                rw [survives_iff_confirmed hs htext, confirmed_iff_isDetached hid sessionId,
                  Bool.not_eq_false]
              · have hnone : ((m.sessionsOf name).flatMap fun e =>
                    (isDetached source.steady e.1 id e.2).2).filterMap Question.text? = [] := by
                  refine List.filterMap_eq_nil_iff.2 fun question hquestion => ?_
                  obtain ⟨e, -, he⟩ := List.mem_flatMap.1 hquestion
                  exact text?_of_mem_isDetached he
                rw [List.filterMap_cons, hnone]
                rfl

/-! ### All certificates -/

/-- Checks certificates one after the other; the second part collects the questions. -/
def refreshEach (files : String → Except Fault (Option String)) (hash : String → String)
    (source : SweepSource) (start : SessionManager × List Question) (names : List String) :
    SessionManager × List Question :=
  names.foldl (fun (m, asked) name =>
    let (m, more) := m.refreshCertificate files hash source name
    (m, asked ++ more)) start

theorem refresh_eq_refreshEach (m : SessionManager) (files : String → Except Fault (Option String))
    (hash : String → String) (source : SweepSource) :
    m.refresh files hash source = refreshEach files hash source (m, []) m.hashes :=
  rfl

theorem capacity_refreshEach (files : String → Except Fault (Option String)) (hash : String → String)
    (source : SweepSource) (start : SessionManager × List Question) (names : List String) :
    (refreshEach files hash source start names).1.capacity = start.1.capacity := by
  induction names generalizing start with
  | nil => rfl
  | cons name names ih => exact (ih _).trans (capacity_refreshCertificate files hash source start.1 name)

/-- Every check filters the list, so after all of them the sessions of the checked certificates are
left that survive, and all others. -/
theorem keeps_refreshEach (files : String → Except Fault (Option String)) (hash : String → String)
    (source : IdentitySource) (h : m.cache.Keeps l) (names : List String) (asked : List Question) :
    let r := refreshEach files hash source.steady (m, asked) names
    r.1.cache.Keeps (l.filter fun v =>
        ∀ name ∈ names, hashOf v.2.1 = some name → Survives files hash source v.2.1) ∧
      r.2.filterMap Question.text? =
        asked.filterMap Question.text? ++ names.filterMap (storedText? files hash) := by
  induction names generalizing m l asked with
  | nil =>
      refine ⟨?_, (List.append_nil _).symm⟩
      rw [List.filter_eq_self.2 fun v _ => decide_eq_true nofun]
      exact h
  | cons name names ih =>
      obtain ⟨hkeeps, hasked⟩ := keeps_refreshCertificate files hash source h name
      obtain ⟨hkeeps', hasked'⟩ := ih hkeeps
        (asked ++ (m.refreshCertificate files hash source.steady name).2)
      constructor
      · have hfilter : l.filter (fun v => ∀ name' ∈ name :: names, hashOf v.2.1 = some name' →
            Survives files hash source v.2.1) =
            (l.filter fun v => hashOf v.2.1 = some name → Survives files hash source v.2.1).filter
              fun v => ∀ name' ∈ names, hashOf v.2.1 = some name' →
                Survives files hash source v.2.1 := by
          rw [List.filter_filter]
          refine List.filter_congr fun v _ => ?_
          rw [← Bool.decide_and, decide_eq_decide, List.forall_mem_cons, and_comm]
        rw [hfilter]
        exact hkeeps'
      · refine hasked'.trans ?_
        rw [List.filterMap_append, hasked, List.append_assoc]
        cases htext : storedText? files hash name with
        | none => rw [List.filterMap_cons_none htext, Option.toList_none, List.nil_append]
        | some text =>
            rw [List.filterMap_cons_some htext, Option.toList_some, List.singleton_append]

/-- The hashes are those of the certificates of live sessions. -/
theorem mem_hashes_iff :
    name ∈ m.hashes ↔ ∃ id s, m.cache.peek? id = some s ∧ hashOf s = some name := by
  unfold hashes
  simp only [List.mem_eraseDups, List.mem_filterMap, Prod.exists, SessionCache.mem_snapshot_iff]

theorem mem_hashes_iff_of_keeps (h : m.cache.Keeps l) :
    name ∈ m.hashes ↔ ∃ v ∈ l, hashOf v.2.1 = some name := by
  rw [mem_hashes_iff]
  constructor
  · rintro ⟨id, s, hlive, hs⟩
    obtain ⟨now, hv⟩ := h.peek?_eq_some_iff.1 hlive
    exact ⟨(id, s, now), hv, hs⟩
  · rintro ⟨⟨id, s, now⟩, hv, hs⟩
    exact ⟨id, s, h.peek?_eq_some_iff.2 ⟨now, hv⟩, hs⟩

/-- **A refresh keeps the sessions that survive.**  In whatever order the certificates of the live
sessions are visited, those sessions are left that survive, in their order by recency and with the
times of their last use; and one question is asked for each certificate of a live session that has
a stored text of its hash. -/
theorem refresh_survivors (files : String → Except Fault (Option String)) (hash : String → String)
    (source : IdentitySource) (h : m.cache.Keeps l) :
    m.refresh files hash source.steady = refreshEach files hash source.steady (m, []) m.hashes ∧
      m.hashes.Nodup ∧ (∀ name, name ∈ m.hashes ↔ ∃ v ∈ l, hashOf v.2.1 = some name) ∧
      ∀ names, names.Perm m.hashes →
        let r := refreshEach files hash source.steady (m, []) names
        r.1.cache.Keeps (l.filter fun v => Survives files hash source v.2.1) ∧
          r.1.capacity = m.capacity ∧
          r.2.filterMap Question.text? = names.filterMap (storedText? files hash) := by
  refine ⟨refresh_eq_refreshEach m files hash source.steady, nodup_eraseDups _,
    fun name => mem_hashes_iff_of_keeps h, fun names hnames => ?_⟩
  obtain ⟨hkeeps, hasked⟩ := keeps_refreshEach files hash source h names []
  refine ⟨?_, capacity_refreshEach files hash source.steady (m, []) names, hasked⟩
  have hfilter : l.filter (fun v => Survives files hash source v.2.1) =
      l.filter fun v => ∀ name ∈ names, hashOf v.2.1 = some name →
        Survives files hash source v.2.1 := by
    refine List.filter_congr fun v hv => ?_
    rw [decide_eq_decide]
    refine ⟨fun hsurvives name _ _ => hsurvives, fun hnone => ?_⟩
    cases hs : hashOf v.2.1 with
    | none => exact survives_of_hashOf_eq_none hs
    | some name =>
        exact hnone name (hnames.mem_iff.2 ((mem_hashes_iff_of_keeps h).2 ⟨v, hv, hs⟩)) hs
  rw [hfilter]
  exact hkeeps

/-- Four sessions: two of one certificate, one of another and one of a component. -/
def fourSessions : List (CacheOp Session) :=
  let sensor := Session.ofCertificate ⟨"aa", "first", true⟩
  let pump := Session.ofCertificate ⟨"bb", "second", true⟩
  [.insert "s" (sensor.withThing ⟨"sensor", rfl⟩) 1 9, .insert "p" pump 2 9,
    .insert "t" (sensor.withThing ⟨"twin", rfl⟩) 3 9, .insert "c" .ofComponent 4 9, .touch "s" 5]

/-- Both certificates are stored, the first is active and only the sensor is attached to it, and the
source cannot be asked about the second. -/
theorem refresh_survivors_four :
    let files : String → Except Fault (Option String) := fun name => .ok (some ("text " ++ name))
    let hash : String → String := fun text => (text.drop 5).toString
    let source : IdentitySource :=
      ⟨fun text => if text = "text aa" then .ok (some "first") else .error (.internal "unreachable"),
        fun thing _ => .ok (decide (thing.name = "sensor"))⟩
    let m : SessionManager := ⟨(runOps SessionCache.step .empty fourSessions).1, 9⟩
    let r := refreshEach files hash source.steady (m, []) ["bb", "aa"]
    r.1.cache.idsByRecency = ["p", "c", "s"] ∧
      r.2.filterMap Question.text? = ["text bb", "text aa"] := by
  intro files hash source m r
  have hm : m.cache.Keeps (runOps RecencyList.step [] fourSessions).1 :=
    (SessionCache.keeps_empty.run fourSessions).1
  obtain ⟨-, -, -, heach⟩ := refresh_survivors files hash source hm
  obtain ⟨hkeeps, -, hasked⟩ := heach ["bb", "aa"] (by decide +kernel)
  refine ⟨hkeeps.idsByRecency_eq.trans ?_, hasked.trans ?_⟩
  · decide +kernel
  · decide +kernel

end SessionManager

end DeviceAccess
