import DeviceAccess.Proofs.Sessions.Refresh

/-!
# Which answers close a session

A sweep that has a text to ask about for the certificate of a session asks its questions about the
session (`SessionManager.questionsOf`) and closes it exactly if an answer to them is negative
(`SessionManager.Denies`, `SessionManager.refresh_denied`).  The answers may change while the sweep is
under way, and so it is the session's own answers that count.  A sweep that gets nothing but errors
leaves everything as it was (`SessionManager.refresh_of_errors`).
-/

namespace DeviceAccess

namespace SessionManager

variable {m : SessionManager} {files : String → Except Fault (Option String)}
  {hash : String → String} {source : SweepSource} {id name text : String} {s : Session}
  {names : List String} {start : SessionManager × List Question}

/-- The source answers that a certificate with this text is not active, or that the thing of the
session is not attached to it. -/
def Denies (source : SweepSource) (text id : String) (s : Session) : Prop :=
  source.activeId text = .ok none ∨
    ∃ cid thing, source.activeId text = .ok (some cid) ∧ s.thing? = some thing ∧
      source.isAttached id thing cid = .ok false

/-- What there is to ask about a session whose certificate has this text. -/
def questionsOf (source : SweepSource) (text : String) (s : Session) : List Question :=
  .certificate text ::
    match source.activeId text with
    | .ok (some cid) => s.thing?.toList.map fun thing => .attachment thing cid
    | .ok none | .error _ => []

theorem certificate_mem_questionsOf (source : SweepSource) (text : String) (s : Session) :
    .certificate text ∈ questionsOf source text s :=
  List.mem_cons_self

theorem denies_of_activeId_eq_none (h : source.activeId text = .ok none) :
    Denies source text id s :=
  .inl h

theorem not_denies_of_activeId_eq_error {e : Fault} (h : source.activeId text = .error e) :
    ¬Denies source text id s := by
  rintro (hnone | ⟨cid, thing, hcid, -⟩)
  · cases h.symm.trans hnone
  · cases h.symm.trans hcid

/-- What is denied about a session of an active certificate is that its thing is attached. -/
theorem denies_iff_isDetached {cid : String} (h : source.activeId text = .ok (some cid)) :
    Denies source text id s ↔ (isDetached source id cid s).1 = true := by
  rw [isDetached_fst_iff]
  constructor
  · rintro (hnone | ⟨cid', thing, hcid, hthing, hdetached⟩)
    · cases h.symm.trans hnone
    · obtain rfl := Option.some.inj (Except.ok.inj (h.symm.trans hcid))
      exact ⟨thing, hthing, hdetached⟩
  · rintro ⟨thing, hthing, hdetached⟩
    exact .inr ⟨cid, thing, h, hthing, hdetached⟩

/-! ### One certificate -/

/-- The check of a certificate closes those of its sessions that are denied, and all of them if
there is no text to ask about. -/
theorem peek?_refreshCertificate_eq_some_iff :
    (m.refreshCertificate files hash source name).1.cache.peek? id = some s ↔
      m.cache.peek? id = some s ∧ (hashOf s = some name →
        ∃ text, storedText? files hash name = some text ∧ ¬Denies source text id s) := by
  cases htext : storedText? files hash name with
  | none =>
      rw [refreshCertificate_of_storedText?_eq_none htext, peek?_closeAll_eq_some_iff]
      refine and_congr_right fun hlive => ?_
      rw [mem_sessionsOf_iff, and_iff_right hlive]
      constructor
      · intro hother hhash
        exact absurd hhash hother
      · intro hnone hhash
        obtain ⟨_, hnothing, -⟩ := hnone hhash
        cases hnothing
  | some text =>
      simp only [Option.some.injEq, exists_eq_left']
      rw [refreshCertificate_of_storedText?_eq_some htext]
      cases hactive : source.activeId text with
      | error e => exact (and_iff_left fun _ => not_denies_of_activeId_eq_error hactive).symm
      | ok cid? =>
          cases cid? with
          | none =>
              refine peek?_closeAll_eq_some_iff.trans (and_congr_right fun hlive => ?_)
              rw [mem_sessionsOf_iff, and_iff_right hlive]
              exact forall_congr' fun _ =>
                iff_of_false not_false (not_not_intro (denies_of_activeId_eq_none hactive))
          | some cid =>
              refine peek?_closeAll_eq_some_iff.trans (and_congr_right fun hlive => ?_)
              rw [List.mem_filter, mem_sessionsOf_iff, and_iff_right hlive,
                ← denies_iff_isDetached hactive, not_and]

/-- The check of a certificate asks the questions about each of its sessions. -/
theorem questionsOf_subset_refreshCertificate (hlive : m.cache.peek? id = some s)
    (hhash : hashOf s = some name) (htext : storedText? files hash name = some text) :
    questionsOf source text s ⊆ (m.refreshCertificate files hash source name).2 := by
  rw [refreshCertificate_of_storedText?_eq_some htext]
  unfold questionsOf
  cases source.activeId text with
  | error e => exact List.Subset.refl _
  | ok cid? =>
      cases cid? with
      | none => exact List.Subset.refl _
      | some cid =>
          refine List.cons_subset_cons _ fun question hquestion => ?_
          refine List.mem_flatMap.2 ⟨(id, s), mem_sessionsOf_iff.2 ⟨hlive, hhash⟩, ?_⟩
          rw [isDetached_snd]
          exact hquestion

/-! ### All certificates -/

theorem refreshEach_cons :
    refreshEach files hash source start (name :: names) =
      refreshEach files hash source ((start.1.refreshCertificate files hash source name).1,
        start.2 ++ (start.1.refreshCertificate files hash source name).2) names :=
  rfl

theorem peek?_refreshEach_eq_some_iff :
    (refreshEach files hash source start names).1.cache.peek? id = some s ↔
      start.1.cache.peek? id = some s ∧ ∀ name ∈ names, hashOf s = some name →
        ∃ text, storedText? files hash name = some text ∧ ¬Denies source text id s := by
  induction names generalizing start with
  | nil => exact (and_iff_left nofun).symm
  | cons name names ih =>
      rw [refreshEach_cons, ih, peek?_refreshCertificate_eq_some_iff, List.forall_mem_cons, and_assoc]

theorem subset_refreshEach : start.2 ⊆ (refreshEach files hash source start names).2 := by
  induction names generalizing start with
  | nil => exact List.Subset.refl _
  | cons name names ih =>
      rw [refreshEach_cons]
      exact fun question hquestion => ih (List.mem_append_left _ hquestion)

/-- The checks before that of its own certificate leave a session alone, and so it comes to the
questions about it. -/
theorem questionsOf_subset_refreshEach (hlive : start.1.cache.peek? id = some s)
    (hname : name ∈ names) (hhash : hashOf s = some name)
    (htext : storedText? files hash name = some text) :
    questionsOf source text s ⊆ (refreshEach files hash source start names).2 := by
  induction names generalizing start with
  | nil => cases hname
  | cons first names ih =>
      rw [refreshEach_cons]
      by_cases heq : name = first
      · subst heq
        intro question hquestion
        have hasked := questionsOf_subset_refreshCertificate hlive hhash htext hquestion
        exact subset_refreshEach (List.mem_append_right _ hasked)
      · refine ih (peek?_refreshCertificate_eq_some_iff.2 ⟨hlive, fun hfirst => ?_⟩)
          (List.mem_of_ne_of_mem heq hname)
        exact absurd (Option.some.inj (hhash.symm.trans hfirst)) heq

/-- **A sweep closes the sessions that are denied.**  If there is a text to ask about for the
certificate of a session, the sweep asks the questions about the session, closes it if they are
answered in the negative, and leaves it as it was if not. -/
theorem refresh_denied (hlive : m.cache.peek? id = some s) (hhash : hashOf s = some name)
    (htext : storedText? files hash name = some text) :
    let r := m.refresh files hash source
    questionsOf source text s ⊆ r.2 ∧
      (r.1.cache.peek? id = some s ∧ ¬Denies source text id s ∨
        r.1.cache.peek? id = none ∧ Denies source text id s) := by
  intro r
  have hname : name ∈ m.hashes := mem_hashes_iff.2 ⟨id, s, hlive, hhash⟩
  have hkept : r.1.cache.peek? id = some s ↔ ¬Denies source text id s := by
    refine peek?_refreshEach_eq_some_iff.trans ⟨fun h => ?_, fun h => ⟨hlive, fun name' _ hhash' => ?_⟩⟩
    · obtain ⟨text', htext', hnot⟩ := h.2 name hname hhash
      obtain rfl := Option.some.inj (htext.symm.trans htext')
      exact hnot
    · obtain rfl := Option.some.inj (hhash.symm.trans hhash')
      exact ⟨text, htext, h⟩
  refine ⟨questionsOf_subset_refreshEach hlive hname hhash htext, ?_⟩
  by_cases hdenied : Denies source text id s
  · refine .inr ⟨Option.eq_none_iff_forall_ne_some.2 fun s' hs' => ?_, hdenied⟩
    obtain rfl := Option.some.inj (hlive.symm.trans (peek?_of_refresh hs'))
    exact hkept.1 hs' hdenied
  · exact .inl ⟨hkept.2 hdenied, hdenied⟩

/-- A sweep that gets an error for every certificate leaves the sessions as they were. -/
theorem refresh_of_errors (h : ∀ name ∈ m.hashes, ∃ text e,
      storedText? files hash name = some text ∧ source.activeId text = .error e) :
    (m.refresh files hash source).1 = m := by
  rw [refresh_eq_refreshEach]
  generalize m.hashes = names at h
  generalize ([] : List Question) = asked
  induction names generalizing asked with
  | nil => rfl
  | cons name names ih =>
      obtain ⟨⟨text, e, htext, herror⟩, hrest⟩ := List.forall_mem_cons.1 h
      have hcheck : (m.refreshCertificate files hash source name).1 = m := by
        rw [refreshCertificate_of_storedText?_eq_some htext, herror]
      rw [refreshEach_cons, hcheck]
      exact ih hrest _

end SessionManager

end DeviceAccess
