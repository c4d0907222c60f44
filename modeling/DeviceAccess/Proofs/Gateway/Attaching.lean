import DeviceAccess.Proofs.Along
import DeviceAccess.Proofs.Gateway.Grounds

/-!
# Attempts to attach a thing

A session learns its thing from the identity source, and only once.  An attempt to attach a thing asks
the source if the name is that of a thing and nothing was answered before; a failed question is no
answer, so the next attempt asks again.  From the first answer on the session's thing is settled, be it
the thing that was asked for or none, and attempts under other names make no difference.

`Gateway.attachThing_run` says this of every attempt in a run of the gateway: which attempts ask, what
they answer, and which thing the session has at each time.  What else happens meanwhile may use, open
and close sessions, as long as it does not close this one.  An attempt that settles nothing is a look-up
of the session and no more (`Gateway.lookedUp`).
-/

namespace DeviceAccess

/-- A text that names no thing is reported as a failed authentication. -/
theorem Thing.eq_authentication_of_ofName {name : String} {e : Fault} (h : ofName name = .error e) :
    ∃ reason, e = .authentication reason := by
  unfold ofName at h
  split at h
  · cases h
  · exact ⟨_, (Except.error.inj h).symm⟩

namespace SessionCache

variable {σ : Type} {c : SessionCache σ} {id : String} {s : σ}

/-- To put a session in its own place changes nothing. -/
theorem update_self (h : c.peek? id = some s) : c.update id (fun _ => s) = c := by
  obtain ⟨e, he, rfl⟩ := peek?_eq_some_iff.1 h
  unfold update
  rw [he]
  have hentries : c.entries.insert id e = c.entries := by
    refine OrderedMap.ext_get? fun id' => ?_
    rw [OrderedMap.get?_insert]
    split
    · next hid => rw [← hid, he]
    · rfl
  show { c with entries := c.entries.insert id e } = c
  rw [hentries]

/-- An insertion leaves a session that is live alone, unless it evicts it. -/
theorem eq_of_peek?_insert {id' : String} {s' opened : σ} {now capacity : Nat}
    (h : c.peek? id = some s) (h' : (c.insert id' opened now capacity).1.peek? id = some s') :
    s' = s := by
  rcases peek?_of_insert h' with hkept | ⟨hfree, rfl, -⟩
  · exact Option.some.inj (hkept.symm.trans h)
  · obtain ⟨e, he, -⟩ := peek?_eq_some_iff.1 h
    unfold contains OrderedMap.contains at hfree
    rw [he] at hfree
    cases hfree

end SessionCache

namespace Gateway

variable {tk : Toolkit} {g : Gateway} {id name : String} {s s' : Session}
  {certificate : DeviceCertificate} {source : IdentitySource} {thing : Thing}
  {event : Event} {events : List Event}

/-! ### One attempt -/

/-- The gateway after a look-up of a session. -/
def lookedUp (g : Gateway) (clock : Nat) (id : String) : Gateway :=
  { g with sessions := (g.sessions.find id clock).1 }

theorem session?_lookedUp (g : Gateway) (clock : Nat) (id id' : String) :
    (g.lookedUp clock id).session? id' = g.session? id' := by
  unfold lookedUp session?
  rw [SessionManager.find_eq]
  exact SessionCache.peek?_touch ..

section
variable (hid : id ≠ componentId) (hlive : g.session? id = some s)
  (hcert : s.certificate? = some certificate)
include hid hlive hcert

/-- A text that names no thing is refused. -/
theorem attachThing_of_not_named {e : Fault} (hname : Thing.ofName name = .error e) (clock : Nat)
    (source : IdentitySource) :
    g.attachThing clock source id name = ⟨g.lookedUp clock id, [], .error e⟩ := by
  unfold session? at hlive
  unfold attachThing lookedUp
  rw [if_neg hid, SessionManager.find_eq, hlive]
  simp only [hcert, hname]

/-- An attempt that leaves the session as it is was a look-up. -/
theorem attachThing_of_unchanged (hname : Thing.ofName name = .ok thing)
    (hsame : (s.attach (thingAnswer source thing certificate.id)).session = s) (clock : Nat) :
    (g.attachThing clock source id name).gateway = g.lookedUp clock id := by
  rw [attachThing_eq hid hlive hcert hname]
  show { g with sessions := (g.sessions.find id clock).1.update id fun _ =>
    (s.attach (thingAnswer source thing certificate.id)).session } = _
  have hpeek : (g.sessions.find id clock).1.cache.peek? id = some s :=
    (g.session?_lookedUp clock id id).trans hlive
  rw [hsame]
  unfold SessionManager.update lookedUp
  rw [SessionCache.update_self hpeek]

/-- A settled session is not asked about again. -/
theorem attachThing_of_isResolved (hname : Thing.ofName name = .ok thing) (h : s.isResolved = true)
    (clock : Nat) (source : IdentitySource) :
    g.attachThing clock source id name = ⟨g.lookedUp clock id, [], .ok ()⟩ := by
  have hattach := Session.attach_of_isResolved h (thingAnswer source thing certificate.id)
  rw [← attachThing_of_unchanged hid hlive hcert hname (by rw [hattach]) clock,
    attachThing_eq hid hlive hcert hname, hattach]
  rfl

/-- A question that fails settles nothing. -/
theorem attachThing_of_unanswered {e : Fault} (hname : Thing.ofName name = .ok thing)
    (h : s.facet = .unresolved) (hanswer : source.isAttached thing certificate.id = .error e)
    (clock : Nat) :
    g.attachThing clock source id name = ⟨g.lookedUp clock id, [.attachment thing certificate.id],
      .error (.authentication "Failed to verify thing identity with cloud")⟩ := by
  have hattach : s.attach (thingAnswer source thing certificate.id) =
      ⟨s, true, .error (.authentication "Failed to verify thing identity with cloud")⟩ := by
    unfold Session.attach thingAnswer
    rw [h, hanswer]
  rw [← attachThing_of_unchanged hid hlive hcert hname (by rw [hattach]) clock,
    attachThing_eq hid hlive hcert hname, hattach]
  rfl

/-- The first answer settles the thing. -/
theorem attachThing_of_answered {attached : Bool} (hname : Thing.ofName name = .ok thing)
    (h : s.facet = .unresolved) (hanswer : source.isAttached thing certificate.id = .ok attached)
    (clock : Nat) :
    let a := g.attachThing clock source id name
    a.asked = [.attachment thing certificate.id] ∧ a.result = .ok () ∧
      a.gateway.session? id =
        some { s with facet := .resolved (if attached then some thing else none) } := by
  have hattach : s.attach (thingAnswer source thing certificate.id) =
      ⟨{ s with facet := .resolved (if attached then some thing else none) }, true,
        .ok (if attached then some thing else none)⟩ := by
    unfold Session.attach thingAnswer
    rw [h, hanswer]
    cases attached with
    | true => rfl
    | false => rfl
  refine ⟨?_, ?_, ?_⟩
  · rw [attachThing_eq hid hlive hcert hname, hattach]
    rfl
  · rw [attachThing_eq hid hlive hcert hname, hattach]
    rfl
  · rw [session?_attachThing hid hlive hcert hname, if_pos rfl, hattach]

end

/-! ### What else happens -/

/-- The event attempts to attach a thing to the session of an id. -/
def Event.attachesTo (id : String) : Event → Bool
  | .attachThing _ _ id' _ => id' = id
  | _ => false

theorem Event.exists_of_attachesTo (h : event.attachesTo id = true) :
    ∃ clock source name, event = .attachThing clock source id name := by
  unfold attachesTo at h
  split at h
  · next clock source id' name =>
      obtain rfl := of_decide_eq_true h
      exact ⟨clock, source, name, rfl⟩
  · cases h

/-- An opening adds one session, if any. -/
theorem sessions_openSession (tk : Toolkit) (g : Gateway) (now : Int) (clock : Nat)
    (source : IdentitySource) (text : String) :
    (g.openSession tk now clock source text).gateway.sessions = g.sessions ∨
      ∃ id opened, (g.openSession tk now clock source text).gateway.sessions =
        (g.sessions.add id opened clock).1 := by
  unfold openSession
  split
  · exact .inl rfl
  · split
    · exact .inl rfl
    · exact .inl rfl
    · exact .inr ⟨_, _, rfl⟩

/-- Whatever else happens, a session that stays live stays the same. -/
theorem eq_of_session?_step (hlive : g.session? id = some s) (hother : event.attachesTo id = false)
    (h : (g.step tk event).session? id = some s') : s' = s := by
  rcases session?_step h with hkept | ⟨c, ⟨now, clock, source, text, rfl, -⟩, -⟩ |
    ⟨s₀, c, thing, attached, -, -, -, ⟨clock, source, name, rfl, -⟩, -⟩
  · exact Option.some.inj (hkept.symm.trans hlive)
  · change (g.openSession tk now clock source text).gateway.sessions.cache.peek? id = some s' at h
    rcases sessions_openSession tk g now clock source text with hsame | ⟨id', opened, hadd⟩
    · rw [hsame] at h
      exact Option.some.inj (h.symm.trans hlive)
    · rw [hadd] at h
      exact SessionCache.eq_of_peek?_insert hlive h
  · exact absurd hother (by simp [Event.attachesTo])

/-- The session of an id stays live, whatever happens beside attempts to attach a thing to it. -/
def StaysLive (tk : Toolkit) (g : Gateway) (id : String) (events : List Event) : Prop :=
  Along (step tk)
    (fun g event => event.attachesTo id = true ∨ (g.step tk event).session? id ≠ none) g events

/-! ### Answers -/

/-- The event attempts to attach a thing to the session of an id, and the identity source, if it is
asked, answers whether the thing is attached to the certificate. -/
def Event.Answers (id certificateId : String) (event : Event) (thing : Thing) (attached : Bool) :
    Prop :=
  ∃ clock source name, event = .attachThing clock source id name ∧
    Thing.ofName name = .ok thing ∧ source.isAttached thing certificateId = .ok attached

/-- No attempt is answered. -/
def Unanswered (id certificateId : String) (events : List Event) : Prop :=
  ∀ event ∈ events, ∀ thing attached, ¬event.Answers id certificateId thing attached

/-- A session whose thing is settled, or for which nothing is answered, stays as it is. -/
theorem session?_run_of_unanswered (hid : id ≠ componentId) (hlive : g.session? id = some s)
    (hcert : s.certificate? = some certificate) (hstays : StaysLive tk g id events)
    (h : s.isResolved = true ∨ Unanswered id certificate.id events) :
    (g.run tk events).session? id = some s := by
  induction events generalizing g with
  | nil => exact hlive
  | cons event events ih =>
      refine ih ?_ hstays.2 (h.imp_right fun h e he => h e (List.mem_cons_of_mem event he))
      cases hattaches : event.attachesTo id with
      | false =>
          have hsome := hstays.1.resolve_left (hattaches ▸ Bool.false_ne_true)
          obtain ⟨s', hs'⟩ := Option.ne_none_iff_exists'.1 hsome
          exact eq_of_session?_step hlive hattaches hs' ▸ hs'
      | true =>
          obtain ⟨clock, source, name, rfl⟩ := Event.exists_of_attachesTo hattaches
          show (g.attachThing clock source id name).gateway.session? id = some s
          cases hname : Thing.ofName name with
          | error e =>
              rw [attachThing_of_not_named hid hlive hcert hname, session?_lookedUp, hlive]
          | ok thing =>
              cases hfacet : s.facet with
              | resolved thing' =>
                  have hresolved : s.isResolved = true := by
                    unfold Session.isResolved
                    rw [hfacet]
                  rw [attachThing_of_isResolved hid hlive hcert hname hresolved, session?_lookedUp,
                    hlive]
              | unresolved =>
                  have hquiet := h.resolve_left (by
                    unfold Session.isResolved
                    rw [hfacet]
                    exact Bool.false_ne_true)
                  cases hanswer : source.isAttached thing certificate.id with
                  | error e =>
                      rw [attachThing_of_unanswered hid hlive hcert hname hfacet hanswer,
                        session?_lookedUp, hlive]
                  | ok attached =>
                      exact absurd ⟨clock, source, name, rfl, hname, hanswer⟩
                        (hquiet _ List.mem_cons_self thing attached)

/-- The first answer settles the session's thing for good. -/
theorem session?_run_of_answers (hid : id ≠ componentId) (hlive : g.session? id = some s)
    (hcert : s.certificate? = some certificate) (hfacet : s.facet = .unresolved)
    {first rest : List Event} {attached : Bool}
    (hstays : StaysLive tk g id (first ++ event :: rest))
    (hfirst : Unanswered id certificate.id first)
    (hanswers : event.Answers id certificate.id thing attached) :
    (g.run tk (first ++ event :: rest)).session? id =
      some { s with facet := .resolved (if attached then some thing else none) } := by
  obtain ⟨hbefore, -, hafter⟩ := along_append.1 hstays
  have hlive' := session?_run_of_unanswered hid hlive hcert hbefore (.inr hfirst)
  obtain ⟨clock, source, name, rfl, hname, hanswer⟩ := hanswers
  have hsettled := (attachThing_of_answered hid hlive' hcert hname hfacet hanswer clock).2.2
  rw [run_append]
  exact session?_run_of_unanswered (g := (g.run tk first).step tk (.attachThing clock source id name))
    hid hsettled hcert hafter (.inl rfl)

/-- If attempts are answered, one of them is the first. -/
theorem exists_first_of_not_unanswered {certificateId : String}
    (h : ¬Unanswered id certificateId events) :
    ∃ first event rest thing attached, events = first ++ event :: rest ∧
      Unanswered id certificateId first ∧ event.Answers id certificateId thing attached := by
  induction events with
  | nil => exact absurd (fun event hevent => nomatch hevent) h
  | cons event events ih =>
      by_cases hevent : ∃ thing attached, event.Answers id certificateId thing attached
      · obtain ⟨thing, attached, hanswers⟩ := hevent
        exact ⟨[], event, events, thing, attached, rfl, nofun, hanswers⟩
      · have hquiet : ∀ thing attached, ¬event.Answers id certificateId thing attached :=
          fun thing attached hanswers => hevent ⟨thing, attached, hanswers⟩
        have hlater : ¬Unanswered id certificateId events :=
          fun hlater => h (List.forall_mem_cons.2 ⟨hquiet, hlater⟩)
        obtain ⟨first, k, rest, thing, attached, rfl, hfirst, hanswers⟩ := ih hlater
        exact ⟨event :: first, k, rest, thing, attached, rfl, List.forall_mem_cons.2 ⟨hquiet, hfirst⟩,
          hanswers⟩

/-- **A thing is asked for until it is answered, and settled from then on.**  Take a live session of a
device certificate and anything that happens later, as long as nothing else closes the session.

* Until an attempt is answered the session stays as it is.  From the first answer on its thing is the
  one that this attempt named, or none if the answer was negative; a thing that was settled before stays.
* An attempt under a text that names no thing asks nothing, fails and is no more than a look-up.
* An attempt under the name of a thing asks about this thing, unless an attempt was answered before.
  It succeeds if it is answered; otherwise it fails and is no more than a look-up.
* After an answer an attempt under the name of any thing asks nothing, succeeds and is no more than a
  look-up. -/
theorem attachThing_run (tk : Toolkit) {g : Gateway} {id : String} {s : Session}
    {certificate : DeviceCertificate} (hid : id ≠ componentId) (hlive : g.session? id = some s)
    (hcert : s.certificate? = some certificate) (events : List Event)
    (hstays : StaysLive tk g id events) :
    (∀ before more, events = before ++ more →
      (s.isResolved = true ∨ Unanswered id certificate.id before →
        (g.run tk before).session? id = some s) ∧
      (s.facet = .unresolved → ∀ first event rest thing attached, before = first ++ event :: rest →
        Unanswered id certificate.id first → event.Answers id certificate.id thing attached →
        (g.run tk before).session? id =
          some { s with facet := .resolved (if attached then some thing else none) })) ∧
    (∀ before clock source name more, events = before ++ .attachThing clock source id name :: more →
      let g' := g.run tk before
      let a := g'.attachThing clock source id name
      let unsettled := s.facet = .unresolved ∧ Unanswered id certificate.id before
      (∀ e, Thing.ofName name = .error e →
        a.asked = [] ∧ (∃ reason, a.result = .error (.authentication reason)) ∧
          a.gateway = g'.lookedUp clock id) ∧
      ∀ thing, Thing.ofName name = .ok thing →
        (unsettled → a.asked = [.attachment thing certificate.id] ∧
          (∀ attached, source.isAttached thing certificate.id = .ok attached → a.result = .ok ()) ∧
          ∀ e, source.isAttached thing certificate.id = .error e →
            (∃ reason, a.result = .error (.authentication reason)) ∧
              a.gateway = g'.lookedUp clock id) ∧
        (¬unsettled → a.asked = [] ∧ a.result = .ok () ∧ a.gateway = g'.lookedUp clock id)) := by
  have hearlier : ∀ before more, events = before ++ more → StaysLive tk g id before := by
    rintro before more rfl
    exact (along_append.1 hstays).1
  have hunsettled : ∀ before more, events = before ++ more →
      s.isResolved = true ∨ Unanswered id certificate.id before →
        (g.run tk before).session? id = some s := fun before more hevents =>
    session?_run_of_unanswered hid hlive hcert (hearlier before more hevents)
  have hsettled : ∀ before more, events = before ++ more → s.facet = .unresolved →
      ∀ first event rest thing attached, before = first ++ event :: rest →
        Unanswered id certificate.id first → event.Answers id certificate.id thing attached →
        (g.run tk before).session? id =
          some { s with facet := .resolved (if attached then some thing else none) } := by
    rintro before more hevents hfacet first event rest thing attached rfl hfirst hanswers
    exact session?_run_of_answers hid hlive hcert hfacet (hearlier _ more hevents) hfirst hanswers
  refine ⟨fun before more hevents =>
    ⟨hunsettled before more hevents, hsettled before more hevents⟩, ?_⟩
  intro before clock source name more hevents g' a unsettled
  -- Whatever was answered before, some session of the same certificate is live.
  have hnow : ∃ s', g'.session? id = some s' ∧ s'.certificate? = some certificate ∧
      (unsettled → s' = s) ∧ (¬unsettled → s'.isResolved = true) := by
    by_cases hun : unsettled
    · exact ⟨s, hunsettled before _ hevents (.inr hun.2), hcert, fun _ => rfl, absurd hun⟩
    · cases hfacet : s.facet with
      | resolved t =>
          have hresolved : s.isResolved = true := by
            unfold Session.isResolved
            rw [hfacet]
          exact ⟨s, hunsettled before _ hevents (.inl hresolved), hcert, fun _ => rfl,
            fun _ => hresolved⟩
      | unresolved =>
          obtain ⟨first, event, rest, thing, attached, hbefore, hfirst, hanswers⟩ :=
            exists_first_of_not_unanswered fun hquiet => hun ⟨hfacet, hquiet⟩
          exact ⟨_, hsettled before _ hevents hfacet first event rest thing attached hbefore hfirst
            hanswers, hcert, fun h => absurd h hun, fun _ => rfl⟩
  obtain ⟨s', hlive', hcert', hsame, hresolved⟩ := hnow
  refine ⟨fun e hname => ?_, fun thing hname => ⟨fun hun => ?_, fun hun => ?_⟩⟩
  · obtain ⟨reason, rfl⟩ := Thing.eq_authentication_of_ofName hname
    have ha := attachThing_of_not_named hid hlive' hcert' hname clock source
    exact ⟨congrArg Answer.asked ha, ⟨reason, congrArg Answer.result ha⟩, congrArg Answer.gateway ha⟩
  · obtain rfl := hsame hun
    refine ⟨?_, fun attached hanswer => ?_, fun e hanswer => ?_⟩
    · cases hanswer : source.isAttached thing certificate.id with
      | error e =>
          exact congrArg Answer.asked
            (attachThing_of_unanswered hid hlive' hcert hname hun.1 hanswer clock)
      | ok attached => exact (attachThing_of_answered hid hlive' hcert hname hun.1 hanswer clock).1
    · exact (attachThing_of_answered hid hlive' hcert hname hun.1 hanswer clock).2.1
    · have ha := attachThing_of_unanswered hid hlive' hcert hname hun.1 hanswer clock
      exact ⟨⟨_, congrArg Answer.result ha⟩, congrArg Answer.gateway ha⟩
  · have ha := attachThing_of_isResolved hid hlive' hcert' hname (hresolved hun) clock source
    exact ⟨congrArg Answer.asked ha, congrArg Answer.result ha, congrArg Answer.gateway ha⟩

/-! ### A sensor that insists -/

instance decidableStaysLive (tk : Toolkit) (g : Gateway) (id : String) (events : List Event) :
    Decidable (StaysLive tk g id events) :=
  inferInstanceAs (Decidable (Along _ _ g events))

/-- An identity source that cannot be reached. -/
def silentSource : IdentitySource :=
  ⟨fun _ => .error (.cloud .unavailable "silent"), fun _ _ => .error (.cloud .unavailable "silent")⟩

/-- An identity source that attaches nothing. -/
def denyingSource : IdentitySource := ⟨fun _ => .ok (some "certificate"), fun _ _ => .ok false⟩

/-- A gateway with the session of a sensor. -/
def sensorGateway : Gateway :=
  { new emptyWorld ⟨"/work"⟩ LeafSettings.standard with
    sessions := (SessionManager.empty.add sensorId
      (.ofCertificate ⟨"hash", "certificate", true⟩) 0).1 }

/-- A sensor gives no name, then its name while nobody answers, then another name, which is denied. -/
def sensorAttempts : List Event :=
  [.attachThing 1 agreeingSource sensorId "", .attachThing 2 silentSource sensorId "sensor-7",
    .mayPerform 3 sensorId "mqtt:publish" "mqtt:topic:a", .attachThing 4 denyingSource sensorId "x"]

/-- The first two attempts settle nothing.  The denial does, and it stays, although the source would
agree by now. -/
theorem attachThing_sensorAttempts :
    let g := sensorGateway
    let events := sensorAttempts ++ [.attachThing 5 agreeingSource sensorId "sensor-7"]
    let last := (g.run .standard sensorAttempts).attachThing 5 agreeingSource sensorId "sensor-7"
    StaysLive .standard g sensorId events ∧
      (g.run .standard (sensorAttempts.take 3)).session? sensorId = g.session? sensorId ∧
      ((g.run .standard events).session? sensorId).map (·.facet) = some (.resolved none) ∧
      last.asked = [] ∧ last.result = .ok () := by
  intro g events last
  let certificate : DeviceCertificate := ⟨"hash", "certificate", true⟩
  have hlive : g.session? sensorId = some (.ofCertificate certificate) := by decide +kernel
  have hstays : StaysLive .standard g sensorId events := by decide +kernel
  have hfirst : Unanswered sensorId certificate.id (sensorAttempts.take 3) := by
    rintro event hevent thing attached ⟨clock, source, name, rfl, hname, hanswer⟩
    simp only [sensorAttempts, List.take_succ_cons, List.take_zero, List.mem_cons, List.not_mem_nil,
      or_false, Event.attachThing.injEq, reduceCtorEq] at hevent
    rcases hevent with ⟨-, -, -, rfl⟩ | ⟨-, rfl, -, -⟩
    · cases hname
    · cases hanswer
  have hdenied : (Event.attachThing 4 denyingSource sensorId "x").Answers sensorId certificate.id
      ⟨"x", by decide⟩ false := ⟨4, denyingSource, "x", rfl, rfl, rfl⟩
  obtain ⟨hsessions, hattempts⟩ := attachThing_run .standard (by decide) hlive rfl events hstays
  have hlast := hattempts sensorAttempts 5 agreeingSource "sensor-7" [] rfl
  have hsettled : ¬Unanswered sensorId certificate.id sensorAttempts := fun h =>
    h _ (by simp [sensorAttempts]) _ _ hdenied
  obtain ⟨hasked, hresult, -⟩ := (hlast.2 ⟨"sensor-7", by decide⟩ rfl).2 fun h => hsettled h.2
  refine ⟨hstays, ?_, ?_, hasked, hresult⟩
  · rw [hlive]
    exact (hsessions (sensorAttempts.take 3) _ rfl).1 (.inr hfirst)
  · rw [(hsessions events [] (List.append_nil _).symm).2 rfl (sensorAttempts.take 3) _ _ _ _ rfl
      hfirst hdenied]
    rfl

end Gateway

end DeviceAccess
