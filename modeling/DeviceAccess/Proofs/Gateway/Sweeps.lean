import DeviceAccess.Proofs.Along
import DeviceAccess.Proofs.Gateway.Grounds
import DeviceAccess.Proofs.Sessions.Denials
import DeviceAccess.Proofs.Sessions.DeviceFiles

/-!
# Why a sweep closes sessions

A sweep also closes sessions whose certificate text is missing, unreadable or changed.  None of this
happens in a run that starts without stored texts, in which every text can be stored and nobody else
touches the files (`Gateway.Undisturbed`).  There a sweep closes exactly the sessions that the identity
source denies when it is asked in that very sweep (`Gateway.sweep_run`), and an outage closes none.

The invariant is `Gateway.Stored`: every file holds a text that was presented, under its hash, and
every live session has such a file.
-/

namespace DeviceAccess

namespace Gateway

/-- The certificate text that an event presents. -/
def Event.presented? : Event → Option String
  | .openSession _ _ _ text => some text
  | _ => none

/-- What is under a name in the directory of the certificate texts. -/
def deviceFile? (g : Gateway) (name : String) : Option DiskNode :=
  DeviceFiles.nodeAt? g.authority.workDir g.world.disk name

variable (tk : Toolkit)

/-- Whether an opening goes as far as to store the certificate's text. -/
def storesText (g : Gateway) (now : Int) (source : IdentitySource) (text : String) : Bool :=
  !g.authority.isOwn tk now text &&
    match source.activeId text with
    | .ok (some _) => true
    | .ok none | .error _ => false

/-- The event stores its text without failure, if it stores one, and leaves the files of the
certificate texts alone, if it happens elsewhere. -/
def Undisturbed (g : Gateway) : Event → Prop
  | .openSession now _ source text => g.storesText tk now source text = true →
      (DeviceFiles.store g.authority.workDir (certificateHash text) text g.world.disk).2 = .ok ()
  | .elsewhere world authority _ =>
      world.disk.resolve (DeviceFiles.directory authority.workDir) =
          g.world.disk.resolve (DeviceFiles.directory g.authority.workDir) ∧
        world.disk.below (DeviceFiles.directory authority.workDir) =
          g.world.disk.below (DeviceFiles.directory g.authority.workDir)
  | _ => True

instance decidableUndisturbed (g : Gateway) (event : Event) : Decidable (Undisturbed tk g event) :=
  match event with
  | .openSession .. => inferInstanceAs (Decidable (_ = true → _ = Except.ok ()))
  | .elsewhere .. => inferInstanceAs (Decidable (_ ∧ _))
  | .attachThing .. | .mayPerform .. | .closeSession _ | .sweep _ | .closeIdle .. | .setCapacity _
  | .applyGroups _ => inferInstanceAs (Decidable True)

variable {tk} {g : Gateway} {event : Event} {id : String} {certificate : DeviceCertificate}
  {texts : List String} {now : Int} {clock : Nat} {source : IdentitySource} {text : String}

theorem storesText_iff :
    g.storesText tk now source text = true ↔
      ¬g.authority.isOwn tk now text = true ∧ ∃ cid, source.activeId text = .ok (some cid) := by
  unfold storesText
  rw [Bool.and_eq_true, Bool.not_eq_true', ← Bool.not_eq_true]
  refine and_congr_right fun _ => ?_
  split
  · next hactive => exact iff_of_true rfl ⟨_, hactive⟩
  · next hactive => exact iff_of_false Bool.false_ne_true fun ⟨_, h⟩ => nomatch hactive.symm.trans h
  · next hactive => exact iff_of_false Bool.false_ne_true fun ⟨_, h⟩ => nomatch hactive.symm.trans h

/-- An opening that stores no text changes nothing. -/
theorem openSession_of_not_storesText (h : ¬g.storesText tk now source text = true) (clock : Nat) :
    (g.openSession tk now clock source text).gateway = g := by
  unfold openSession
  split
  · rfl
  · next hown =>
      split
      · rfl
      · rfl
      · next hactive => exact absurd (storesText_iff.2 ⟨hown, _, hactive⟩) h

/-- Before a session is opened the text of its certificate is stored. -/
theorem storesText_of_opens (h : Opens tk g (.openSession now clock source text) id certificate) :
    g.storesText tk now source text = true := by
  obtain ⟨_, _, _, _, heq, hactive, -, -, hasked, -⟩ := h
  cases heq
  refine storesText_iff.2 ⟨fun hown => ?_, _, hactive⟩
  unfold openSession at hasked
  rw [if_pos hown] at hasked
  cases hasked

/-! ### The files of the certificate texts -/

theorem deviceFile?_onDisk {α : Type} (g : Gateway) (f : Disk → Disk × Except Fault α)
    (name : String) :
    (g.onDisk f).1.deviceFile? name =
      DeviceFiles.nodeAt? g.authority.workDir (f g.world.disk).1 name :=
  rfl

theorem deviceFile?_keepSession (g : Gateway) (clock : Nat) (session : Session) (name : String) :
    (g.keepSession clock session).1.deviceFile? name = g.deviceFile? name :=
  rfl

/-- An event that presents no certificate opens no session. -/
theorem not_opens_of_presented?_eq_none (h : event.presented? = none) (id : String)
    (certificate : DeviceCertificate) : ¬Opens tk g event id certificate := by
  rintro ⟨_, _, _, _, rfl, -⟩
  cases h

/-- An undisturbed event leaves the files alone, or stores the text that it presents. -/
theorem deviceFile?_step (h : Undisturbed tk g event) :
    ((∀ id certificate, ¬Opens tk g event id certificate) ∧
        ∀ name, (g.step tk event).deviceFile? name = g.deviceFile? name) ∨
      ∃ text mode, event.presented? = some text ∧
        DeviceFiles.isHash (certificateHash text) = true ∧
        ∀ name, (g.step tk event).deviceFile? name =
          if certificateHash text ++ ".pem" = name then
            some ((g.deviceFile? name).getD (.file (.text text) mode))
          else g.deviceFile? name := by
  have hsame {g' : Gateway} (hframe : ∃ sessions, g' = { g with sessions }) (name : String) :
      g'.deviceFile? name = g.deviceFile? name := by
    obtain ⟨_, rfl⟩ := hframe
    rfl
  cases event with
  | openSession now clock source text =>
      by_cases hstores : g.storesText tk now source text = true
      · obtain ⟨hown, cid, hactive⟩ := storesText_iff.1 hstores
        obtain ⟨hhash, mode, hfiles⟩ := DeviceFiles.nodeAt?_store (h hstores)
        refine .inr ⟨text, mode, rfl, hhash, fun name => Eq.trans ?_ (hfiles name)⟩
        show (g.openSession tk now clock source text).gateway.deviceFile? name = _
        rw [openSession_eq hown hactive clock, deviceFile?_keepSession, deviceFile?_onDisk]
      · refine .inl ⟨fun id certificate hopens => hstores (storesText_of_opens hopens), fun name => ?_⟩
        show (g.openSession tk now clock source text).gateway.deviceFile? name = _
        rw [openSession_of_not_storesText hstores]
  | attachThing clock source id name =>
      exact .inl ⟨not_opens_of_presented?_eq_none rfl, hsame (g.attachThing_frame clock source id name)⟩
  | mayPerform clock id operation resource =>
      exact .inl ⟨not_opens_of_presented?_eq_none rfl,
        hsame (g.mayPerform_frame clock id operation resource)⟩
  | closeSession id =>
      exact .inl ⟨not_opens_of_presented?_eq_none rfl, hsame (g.closeSession_frame id)⟩
  | sweep source => exact .inl ⟨not_opens_of_presented?_eq_none rfl, fun _ => rfl⟩
  | closeIdle clock timeout => exact .inl ⟨not_opens_of_presented?_eq_none rfl, fun _ => rfl⟩
  | setCapacity capacity => exact .inl ⟨not_opens_of_presented?_eq_none rfl, fun _ => rfl⟩
  | applyGroups document => exact .inl ⟨not_opens_of_presented?_eq_none rfl, fun _ => rfl⟩
  | elsewhere world authority subscriptions =>
      exact .inl ⟨not_opens_of_presented?_eq_none rfl, DeviceFiles.nodeAt?_congr_of_below h.1 h.2⟩

variable {name : String} {n : DiskNode}

/-- A file that is there stays as it is. -/
theorem deviceFile?_step_of_some (h : Undisturbed tk g event) (hn : g.deviceFile? name = some n) :
    (g.step tk event).deviceFile? name = some n := by
  obtain ⟨-, hsame⟩ | ⟨text, mode, -, -, hfiles⟩ := deviceFile?_step h
  · rw [hsame, hn]
  · rw [hfiles, hn, Option.getD_some, ite_self]

/-- A new file holds the text that the event presents, under its hash. -/
theorem deviceFile?_of_step (h : Undisturbed tk g event)
    (hn : (g.step tk event).deviceFile? name = some n) :
    g.deviceFile? name = some n ∨ ∃ text mode, event.presented? = some text ∧
      name = certificateHash text ++ ".pem" ∧ n = .file (.text text) mode := by
  obtain ⟨-, hsame⟩ | ⟨text, mode, hpresented, -, hfiles⟩ := deviceFile?_step h
  · rw [hsame] at hn
    exact .inl hn
  · rw [hfiles] at hn
    split at hn
    · next hname =>
        cases hold : g.deviceFile? name with
        | none =>
            rw [hold, Option.getD_none] at hn
            exact .inr ⟨text, mode, hpresented, hname.symm, (Option.some.inj hn).symm⟩
        | some n' =>
            rw [hold, Option.getD_some] at hn
            exact .inl hn
    · exact .inl hn

/-- There is a file for a session that was just opened. -/
theorem exists_deviceFile?_of_opens (h : Undisturbed tk g event)
    (hopens : Opens tk g event id certificate) :
    DeviceFiles.isHash certificate.hash = true ∧
      ∃ n, (g.step tk event).deviceFile? (certificate.hash ++ ".pem") = some n := by
  obtain ⟨hnone, -⟩ | ⟨text, mode, hpresented, hhash, hfiles⟩ := deviceFile?_step h
  · exact absurd hopens (hnone id certificate)
  · obtain ⟨now, clock, source, text', rfl, -, hcertificate, -⟩ := hopens
    obtain rfl := Option.some.inj hpresented
    rw [hcertificate]
    exact ⟨hhash, _, (hfiles _).trans (if_pos rfl)⟩

/-! ### The invariant -/

/-- The text stored for a hash of a certificate. -/
def deviceText (g : Gateway) (hash : String) : Except Fault (Option String) :=
  DeviceFiles.load g.authority.workDir hash g.world.disk

/-- Every file holds one of the texts, under its hash, and so does the file of every live session. -/
structure Stored (texts : List String) (g : Gateway) : Prop where
  files : ∀ name n, g.deviceFile? name = some n →
    ∃ text ∈ texts, ∃ mode, name = certificateHash text ++ ".pem" ∧ n = .file (.text text) mode
  sessions : ∀ id s, g.session? id = some s →
    ∃ certificate text, s.basis = .certificate certificate ∧ text ∈ texts ∧
      SessionManager.storedText? g.deviceText certificateHash certificate.hash = some text

theorem storedText?_deviceText_eq_some_iff {hash : String} :
    SessionManager.storedText? g.deviceText certificateHash hash = some text ↔
      (DeviceFiles.isHash hash = true ∧
        ∃ mode, g.deviceFile? (hash ++ ".pem") = some (.file (.text text) mode)) ∧
      certificateHash text = hash := by
  rw [SessionManager.storedText?_eq_some_iff]
  exact and_congr_left' DeviceFiles.load_eq_ok_some_iff

theorem stored_new {world : World} {workDir : Path} (settings : LeafSettings)
    (h : world.disk.below (DeviceFiles.directory workDir) = []) :
    Stored [] (new world workDir settings) where
  files := by
    intro name n hn
    have hnone : (new world workDir settings).deviceFile? name = none :=
      DeviceFiles.nodeAt?_of_below_eq_nil h name
    cases hnone.symm.trans hn
  sessions := by
    intro id s hs
    cases hs

theorem Stored.step (h : Stored texts g) (hevent : Undisturbed tk g event) :
    Stored (texts ++ event.presented?.toList) (g.step tk event) := by
  have hfiles : ∀ name n, (g.step tk event).deviceFile? name = some n →
      ∃ text ∈ texts ++ event.presented?.toList, ∃ mode,
        name = certificateHash text ++ ".pem" ∧ n = .file (.text text) mode := by
    intro name n hn
    obtain hold | ⟨text, mode, hpresented, hname, hnew⟩ := deviceFile?_of_step hevent hn
    · obtain ⟨text, htext, hfile⟩ := h.files name n hold
      exact ⟨text, List.mem_append_left _ htext, hfile⟩
    · rw [hpresented]
      exact ⟨text, List.mem_append_right _ (List.mem_singleton_self text), mode, hname, hnew⟩
  have hkept : ∀ id s, g.session? id = some s → ∃ certificate text,
      s.basis = .certificate certificate ∧ text ∈ texts ++ event.presented?.toList ∧
        SessionManager.storedText? (g.step tk event).deviceText certificateHash certificate.hash =
          some text := by
    intro id s hs
    obtain ⟨certificate, text, hbasis, htext, hstored⟩ := h.sessions id s hs
    rw [storedText?_deviceText_eq_some_iff] at hstored
    obtain ⟨⟨hhash, mode, hfile⟩, hsame⟩ := hstored
    exact ⟨certificate, text, hbasis, List.mem_append_left _ htext,
      storedText?_deviceText_eq_some_iff.2
        ⟨⟨hhash, mode, deviceFile?_step_of_some hevent hfile⟩, hsame⟩⟩
  refine ⟨hfiles, fun id s hs => ?_⟩
  rcases session?_step hs with hlive | ⟨certificate, hopens, rfl⟩ |
    ⟨s₀, certificate, thing, attached, hlive, -, -, -, rfl⟩
  · exact hkept id s hlive
  · obtain ⟨hhash, n, hn⟩ := exists_deviceFile?_of_opens hevent hopens
    obtain ⟨text, htext, mode, hname, rfl⟩ := hfiles _ n hn
    exact ⟨certificate, text, rfl, htext, storedText?_deviceText_eq_some_iff.2
      ⟨⟨hhash, mode, hn⟩, (String.append_left_inj _).1 hname.symm⟩⟩
  · exact hkept id s₀ hlive

theorem stored_run {start : Gateway} (hstart : Stored [] start) {events : List Event}
    (h : Along (step tk) (Undisturbed tk) start events) :
    Stored (events.filterMap Event.presented?) (start.run tk events) := by
  induction events using List.reverseRecOn with
  | nil => exact hstart
  | append_singleton events event ih =>
      obtain ⟨hbefore, hevent, -⟩ := along_append.1 h
      have hpresented : [event].filterMap Event.presented? = event.presented?.toList := by
        rw [List.filterMap_cons]
        cases event.presented? with
        | none => rfl
        | some text => rfl
      rw [run_concat, List.filterMap_append, hpresented]
      exact (ih hbefore).step hevent

/-! ### Sweeps -/

theorem hashOf_of_basis {s : Session} (h : s.basis = .certificate certificate) :
    SessionManager.hashOf s = some certificate.hash :=
  SessionManager.hashOf_eq_some_iff.2 ⟨_, Session.certificate?_eq_some_iff.2 h, rfl⟩

/-- In an undisturbed run there is for every live session the text that it was opened with. -/
theorem exists_opening_of_session? {start : Gateway} {events : List Event} {s : Session}
    (hnone : ∀ id, start.session? id = none) (hstart : Stored [] start)
    (h : Along (step tk) (Undisturbed tk) start events)
    (hdistinct : ∀ text ∈ events.filterMap Event.presented?,
      ∀ text' ∈ events.filterMap Event.presented?,
        certificateHash text = certificateHash text' → text = text')
    (hs : (start.run tk events).session? id = some s) :
    ∃ before now clock answers text after certificate,
      events = before ++ .openSession now clock answers text :: after ∧
      LiveSince tk start before (.openSession now clock answers text) after id certificate ∧
      s.basis = .certificate certificate ∧
      SessionManager.storedText? (start.run tk events).deviceText certificateHash certificate.hash =
        some text := by
  obtain ⟨certificate, stored, hbasis, hmem, hstored⟩ := (stored_run hstart h).sessions id s hs
  obtain ⟨before, opening, after, certificate', hevents, hlive, hbasis', -⟩ :=
    founded_of_session? hnone events hs
  obtain rfl := Basis.certificate.inj (hbasis.symm.trans hbasis')
  obtain ⟨now, clock, answers, text, rfl, -, hcertificate, -⟩ := hlive.opens
  have hpresented : text ∈ events.filterMap Event.presented? :=
    List.mem_filterMap.2 ⟨_, hevents ▸ List.mem_append_right _ List.mem_cons_self, rfl⟩
  have hhash := (SessionManager.storedText?_eq_some_iff.1 hstored).2
  obtain rfl := hdistinct stored hmem text hpresented (hhash.trans hcertificate)
  exact ⟨before, now, clock, answers, stored, after, certificate, hevents, hlive, hbasis, hstored⟩

/-- **What a sweep closes.**  In a run that starts without stored texts, in which every text is stored
and its file left alone, and in which no two of the texts presented have the same hash: a sweep asks
about the text that a session was opened with, and about its thing if that certificate is active; it
closes the session if the answer to one of these questions is negative, and only then.  If it gets
nothing but errors about certificates, it changes nothing. -/
theorem sweep_run (tk : Toolkit) (world : World) (workDir : Path) (settings : LeafSettings)
    (events : List Event) (source : SweepSource)
    (hempty : world.disk.below (DeviceFiles.directory workDir) = [])
    (hevents : Along (step tk) (Undisturbed tk) (new world workDir settings) events)
    (hdistinct : ∀ text ∈ events.filterMap Event.presented?,
      ∀ text' ∈ events.filterMap Event.presented?,
        certificateHash text = certificateHash text' → text = text') :
    let start := new world workDir settings
    let g := start.run tk events
    let swept := g.sweep source
    (∀ id s, g.session? id = some s →
      ∃ before now clock answers text after certificate,
        events = before ++ .openSession now clock answers text :: after ∧
        LiveSince tk start before (.openSession now clock answers text) after id certificate ∧
        s.basis = .certificate certificate ∧
        SessionManager.questionsOf source text s ⊆ swept.2 ∧
        (swept.1.session? id = some s ∧ ¬SessionManager.Denies source text id s ∨
          swept.1.session? id = none ∧ SessionManager.Denies source text id s)) ∧
    ((∀ text, .certificate text ∈ swept.2 → ∃ e, source.activeId text = .error e) →
      swept.1 = g) := by
  intro start g swept
  have hopening {id : String} {s : Session} (hs : g.session? id = some s) :=
    exists_opening_of_session? (fun _ => rfl) (stored_new settings hempty) hevents hdistinct hs
  constructor
  · intro id s hs
    obtain ⟨before, now, clock, answers, text, after, certificate, hsplit, hlive, hbasis, hstored⟩ :=
      hopening hs
    exact ⟨before, now, clock, answers, text, after, certificate, hsplit, hlive, hbasis,
      SessionManager.refresh_denied hs (hashOf_of_basis hbasis) hstored⟩
  · intro herrors
    have hsame : (g.sessions.refresh g.deviceText certificateHash source).1 = g.sessions := by
      refine SessionManager.refresh_of_errors fun name hname => ?_
      obtain ⟨id, s, hs, hhash⟩ := SessionManager.mem_hashes_iff.1 hname
      obtain ⟨_, _, _, _, text, _, certificate, -, -, hbasis, hstored⟩ := hopening hs
      obtain rfl := Option.some.inj (hhash.symm.trans (hashOf_of_basis hbasis))
      have hasked : .certificate text ∈ swept.2 :=
        (SessionManager.refresh_denied hs hhash hstored).1
          (SessionManager.certificate_mem_questionsOf source text s)
      obtain ⟨e, he⟩ := herrors text hasked
      exact ⟨text, e, hstored, he⟩
    show { g with sessions := (g.sessions.refresh g.deviceText certificateHash source).1 } = g
    rw [hsame]

/-- A source that has detached every thing. -/
def detachingSource : SweepSource := ⟨fun _ => .ok (some "certificate"), fun _ _ _ => .ok false⟩

/-- The sensor's session is closed, and a denial stands behind this. -/
theorem sweep_run_sensor :
    let start := new emptyWorld ⟨"/work"⟩ LeafSettings.standard
    let g := start.run .standard sensorRun
    emptyWorld.disk.below (DeviceFiles.directory ⟨"/work"⟩) = [] ∧
      Along (step .standard) (Undisturbed .standard) start sensorRun ∧
      (g.sweep detachingSource).1.session? sensorId = none ∧
      ∃ before now clock answers text after s,
        sensorRun = before ++ .openSession now clock answers text :: after ∧
        g.session? sensorId = some s ∧
        SessionManager.Denies detachingSource text sensorId s := by
  have hempty : emptyWorld.disk.below (DeviceFiles.directory ⟨"/work"⟩) = [] := rfl
  have hdistinct : ∀ text ∈ sensorRun.filterMap Event.presented?,
      ∀ text' ∈ sensorRun.filterMap Event.presented?,
        certificateHash text = certificateHash text' → text = text' := by
    intro text htext text' htext' _
    exact (List.mem_singleton.1 htext).trans (List.mem_singleton.1 htext').symm
  obtain ⟨hundisturbed, hopen, hclosed⟩ :
      Along (step .standard) (Undisturbed .standard)
          (new emptyWorld ⟨"/work"⟩ LeafSettings.standard) sensorRun ∧
        (((new emptyWorld ⟨"/work"⟩ LeafSettings.standard).run .standard sensorRun).session?
          sensorId).isSome = true ∧
        (((new emptyWorld ⟨"/work"⟩ LeafSettings.standard).run .standard sensorRun).sweep
          detachingSource).1.session? sensorId = none := by
    decide +kernel
  obtain ⟨s, hs⟩ := Option.isSome_iff_exists.1 hopen
  obtain ⟨before, now, clock, answers, text, after, -, hsplit, -, -, -, hsession⟩ :=
    (sweep_run .standard emptyWorld ⟨"/work"⟩ LeafSettings.standard sensorRun detachingSource
      hempty hundisturbed hdistinct).1 sensorId s hs
  refine ⟨hempty, hundisturbed, hclosed, before, now, clock, answers, text, after, s, hsplit, hs, ?_⟩
  obtain ⟨hlive, -⟩ | ⟨-, hdenied⟩ := hsession
  · rw [hclosed] at hlive
    cases hlive
  · exact hdenied

end Gateway

end DeviceAccess
