import DeviceAccess.Proofs.Gateway.Run

/-!
# On what grounds requests are allowed

Behind every request that the gateway allows stand earlier events of its run: one that opened the
session for a certificate which the identity source reported active (`LiveSince`), and a later one
that got a positive answer about a thing and that certificate (`AttachedSince`).  In between and up
to the request the session was live without a gap.

The invariant is `Founded`: every live session has such grounds, as far as its thing is resolved.
-/

namespace DeviceAccess

theorem Session.certificate?_eq_some_iff {s : Session} {certificate : DeviceCertificate} :
    s.certificate? = some certificate ↔ s.basis = .certificate certificate := by
  unfold certificate?
  cases s.basis with
  | certificate c => simp
  | component => simp

/-- Nothing is granted to a session without a thing. -/
theorem GroupDocument.Grants.exists_thing {document : GroupDocument} {session : Session}
    {operation resource : String} (h : document.Grants session operation resource) :
    ∃ thing, session.facet = .resolved (some thing) := by
  obtain ⟨_, _, _, ⟨rule, _, hselects⟩, _⟩ := h
  unfold Rule.selects Session.thingName? Session.thing? at hselects
  cases hfacet : session.facet with
  | unresolved =>
      rw [hfacet] at hselects
      cases hselects
  | resolved thing =>
      cases thing with
      | none =>
          rw [hfacet] at hselects
          cases hselects
      | some thing => exact ⟨thing, rfl⟩

namespace Gateway

variable (tk : Toolkit) (start : Gateway)

/-- After the events `before` the event `opening` opened the session of `id` for `certificate`, and
through all of `after` a session for that certificate was live under `id`. -/
structure LiveSince (before : List Event) (opening : Event) (after : List Event) (id : String)
    (certificate : DeviceCertificate) : Prop where
  opens : Opens tk (start.run tk before) opening id certificate
  live : ∀ since, since <+: after →
    ∃ s, (start.run tk (before ++ opening :: since)).session? id = some s ∧
      s.basis = .certificate certificate

/-- One of the events `after` got a positive answer about `thing` and `certificate` for the session
of `id`. -/
def AttachedSince (before : List Event) (opening : Event) (after : List Event) (id : String)
    (certificate : DeviceCertificate) (thing : Thing) : Prop :=
  ∃ between asking rest, after = between ++ asking :: rest ∧
    Asks (start.run tk (before ++ opening :: between)) asking id thing certificate true

/-- The grounds of a session that is live after a run. -/
def Founded (events : List Event) (id : String) (s : Session) : Prop :=
  ∃ before opening after certificate, events = before ++ opening :: after ∧
    LiveSince tk start before opening after id certificate ∧
    s.basis = .certificate certificate ∧
    ∀ thing, s.facet = .resolved (some thing) →
      AttachedSince tk start before opening after id certificate thing

variable {tk start} {before after events : List Event} {opening event : Event} {id : String}
  {certificate : DeviceCertificate} {thing : Thing} {s : Session}

/-! ### What one more event keeps -/

theorem LiveSince.concat (h : LiveSince tk start before opening after id certificate)
    (hs : (start.run tk (before ++ opening :: (after ++ [event]))).session? id = some s)
    (hbasis : s.basis = .certificate certificate) :
    LiveSince tk start before opening (after ++ [event]) id certificate where
  opens := h.opens
  live := by
    intro since hsince
    rcases List.prefix_concat_iff.1 hsince with rfl | hprefix
    · exact ⟨s, hs, hbasis⟩
    · exact h.live since hprefix

theorem AttachedSince.concat (h : AttachedSince tk start before opening after id certificate thing) :
    AttachedSince tk start before opening (after ++ [event]) id certificate thing := by
  obtain ⟨between, asking, rest, rfl, hasks⟩ := h
  exact ⟨between, asking, rest ++ [event], by simp, hasks⟩

/-- An opened session is founded by its opening. -/
theorem Founded.of_opens (hopens : Opens tk (start.run tk events) event id certificate)
    (hs : (start.run tk (events ++ [event])).session? id = some (.ofCertificate certificate)) :
    Founded tk start (events ++ [event]) id (.ofCertificate certificate) := by
  refine ⟨events, event, [], certificate, rfl, ⟨hopens, ?_⟩, rfl, ?_⟩
  · intro since hsince
    rw [List.prefix_nil] at hsince
    subst hsince
    exact ⟨_, hs, rfl⟩
  · intro thing hthing
    cases hthing

/-- A session that an event keeps stays founded. -/
theorem Founded.of_kept (h : Founded tk start events id s)
    (hs : (start.run tk (events ++ [event])).session? id = some s) :
    Founded tk start (events ++ [event]) id s := by
  obtain ⟨before, opening, after, certificate, rfl, hlive, hbasis, hattached⟩ := h
  rw [List.append_assoc, List.cons_append] at hs ⊢
  exact ⟨before, opening, after ++ [event], certificate, rfl, hlive.concat hs hbasis, hbasis,
    fun thing hthing => (hattached thing hthing).concat⟩

/-- A session whose thing is resolved by an event is founded by the answer to it. -/
theorem Founded.of_asks {attached : Bool} (h : Founded tk start events id s)
    (hcert : s.certificate? = some certificate)
    (hasks : Asks (start.run tk events) event id thing certificate attached)
    (hs : (start.run tk (events ++ [event])).session? id =
      some { s with facet := .resolved (if attached then some thing else none) }) :
    Founded tk start (events ++ [event]) id
      { s with facet := .resolved (if attached then some thing else none) } := by
  obtain ⟨before, opening, after, certificate', rfl, hlive, hbasis, -⟩ := h
  rw [Session.certificate?_eq_some_iff, hbasis] at hcert
  obtain rfl := Basis.certificate.inj hcert
  rw [List.append_assoc, List.cons_append] at hs ⊢
  refine ⟨before, opening, after ++ [event], certificate', rfl, hlive.concat hs hbasis, hbasis, ?_⟩
  intro thing' hthing
  cases attached with
  | false => cases hthing
  | true =>
      cases hthing
      exact ⟨after, event, [], rfl, hasks⟩

/-- **Every live session has its grounds.** -/
theorem founded_of_session? (hstart : ∀ id, start.session? id = none) (events : List Event)
    (hs : (start.run tk events).session? id = some s) : Founded tk start events id s := by
  induction events using List.reverseRecOn generalizing s with
  | nil =>
      rw [run, List.foldl_nil, hstart id] at hs
      cases hs
  | append_singleton events event ih =>
      have hstep := hs
      rw [run_concat] at hstep
      rcases session?_step hstep with hkept | ⟨certificate, hopens, rfl⟩ |
        ⟨s₀, certificate, thing, attached, hlive, -, hcert, hasks, rfl⟩
      · exact (ih hkept).of_kept hs
      · exact Founded.of_opens hopens hs
      · exact (ih hlive).of_asks hcert hasks hs

/-! ### Decisions -/

theorem mayPerform_snd {g : Gateway} (hid : id ≠ componentId) (clock : Nat)
    (operation resource : String) :
    (g.mayPerform clock id operation resource).2 = match g.session? id with
      | none => .error (.authorization ("Invalid session ID (" ++ id ++ ")"))
      | some s => .ok (g.groups.allows s operation resource) := by
  unfold mayPerform session?
  rw [if_neg hid, SessionManager.find_eq]
  cases g.sessions.cache.peek? id with
  | none => rfl
  | some s => rfl

/-- A request is allowed exactly if a session is live and the last accepted document grants it the
request. -/
theorem mayPerform_eq_ok_true_iff {g : Gateway} {documents : List GroupDocument}
    (hgroups : g.groups = Groups.applyAll documents) (hid : id ≠ componentId) (clock : Nat)
    (operation resource : String) :
    (g.mayPerform clock id operation resource).2 = .ok true ↔
      ∃ s, g.session? id = some s ∧ WellFormedRequest operation resource ∧
        (GroupDocument.lastAccepted documents).Grants s operation resource := by
  rw [mayPerform_snd hid]
  cases hs : g.session? id with
  | none => simp
  | some s =>
      have hallows : (Groups.applyAll documents).allows s operation resource = true ↔ _ :=
        Groups.allows_iff_of_ofDocument (Groups.ofDocument_lastAccepted documents)
      simp only [Except.ok.injEq, Option.some.injEq, exists_eq_left', hgroups, hallows]

/-- **Allowed requests have grounds.**  In every run of a new gateway, a request under an id other
than that of the components is allowed if a session is live under the id and the groups in force
grant it the request, and only then.  The id was then returned by an opening whose certificate was
reported active, its session has been live ever since, a later question about a thing and that
certificate was answered positively, and it is to that thing that the request is granted.  An id
without a live session is refused. -/
theorem mayPerform_run (tk : Toolkit) (world : World) (workDir : Path) (settings : LeafSettings)
    (events : List Event) (clock : Nat) (id operation resource : String) (hid : id ≠ componentId) :
    let start := new world workDir settings
    let g := start.run tk events
    let inForce := GroupDocument.lastAccepted (events.filterMap Event.document?)
    ((g.mayPerform clock id operation resource).2 = .ok true ↔
      ∃ s, g.session? id = some s ∧ WellFormedRequest operation resource ∧
        inForce.Grants s operation resource) ∧
    ((g.mayPerform clock id operation resource).2 = .ok true →
      ∃ before opening after certificate thing, events = before ++ opening :: after ∧
        LiveSince tk start before opening after id certificate ∧
        AttachedSince tk start before opening after id certificate thing ∧
        WellFormedRequest operation resource ∧
        inForce.Grants ⟨.certificate certificate, .resolved (some thing)⟩ operation resource) ∧
    (g.session? id = none → (g.mayPerform clock id operation resource).2 =
      .error (.authorization ("Invalid session ID (" ++ id ++ ")"))) := by
  intro start g inForce
  have hgroups : g.groups = Groups.applyAll (events.filterMap Event.document?) :=
    groups_run rfl events
  have hiff := mayPerform_eq_ok_true_iff hgroups hid clock operation resource
  refine ⟨hiff, ?_, ?_⟩
  · intro hallowed
    obtain ⟨s, hs, hwell, hgrants⟩ := hiff.1 hallowed
    obtain ⟨thing, hthing⟩ := hgrants.exists_thing
    obtain ⟨before, opening, after, certificate, hevents, hlive, hbasis, hattached⟩ :=
      founded_of_session? (fun _ => rfl) events hs
    have heq : s = ⟨.certificate certificate, .resolved (some thing)⟩ := by
      rw [← hbasis, ← hthing]
    rw [heq] at hgrants
    exact ⟨before, opening, after, certificate, thing, hevents, hlive, hattached thing hthing,
      hwell, hgrants⟩
  · intro hnone
    rw [mayPerform_snd hid, hnone]

/-- An identity source that knows every certificate and attaches every thing. -/
def agreeingSource : IdentitySource := ⟨fun _ => .ok (some "certificate"), fun _ _ => .ok true⟩

/-- An empty disk and the random bytes of the empty seed. -/
def emptyWorld : World := ⟨⟨∅, [], []⟩, .ofSeed []⟩

/-- The first session id drawn from `emptyWorld`. -/
def sensorId : String := "d55c3d68-6042-4deb-b78c-af4bc70a660f"

/-- A sensor connects and names its thing. -/
def sensorRun : List Event :=
  [.applyGroups Groups.ownTelemetry, .openSession 0 0 agreeingSource "sensor certificate",
    .attachThing 1 agreeingSource sensorId "sensor-7"]

/-- The sensor may publish, and the positive answer about its thing stands behind this. -/
theorem mayPerform_sensorRun :
    let start := new emptyWorld ⟨"/work"⟩ LeafSettings.standard
    sensorId ≠ componentId ∧
      ((start.run .standard sensorRun).mayPerform 2 sensorId "mqtt:publish"
        "mqtt:topic:telemetry/sensor-7/temp").2 = .ok true ∧
      ∃ before opening after certificate thing, sensorRun = before ++ opening :: after ∧
        AttachedSince .standard start before opening after sensorId certificate thing := by
  have hid : sensorId ≠ componentId := by decide
  have hallowed : (((new emptyWorld ⟨"/work"⟩ LeafSettings.standard).run .standard
      sensorRun).mayPerform 2 sensorId "mqtt:publish" "mqtt:topic:telemetry/sensor-7/temp").2 =
        .ok true := by decide +kernel
  obtain ⟨before, opening, after, certificate, thing, hevents, -, hattached, -, -⟩ :=
    (mayPerform_run .standard emptyWorld ⟨"/work"⟩ LeafSettings.standard sensorRun 2 sensorId
      "mqtt:publish" "mqtt:topic:telemetry/sensor-7/temp" hid).2.1 hallowed
  exact ⟨hid, hallowed, before, opening, after, certificate, thing, hevents, hattached⟩

end Gateway

end DeviceAccess
