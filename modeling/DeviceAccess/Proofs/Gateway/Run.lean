import Mathlib.Data.List.Induction
import DeviceAccess.Gateway.Access
import DeviceAccess.Proofs.Policy.Grants
import DeviceAccess.Proofs.Sessions.Lookup

/-!
# Runs of the gateway

A run is a list of events: what devices ask, the sweeps, changes of the capacity and of the groups.
Every event brings its own clock and its own answers of the identity source, so nothing is assumed of
either.  What else a gateway does leaves its sessions and its groups alone and is one event that may
set all other parts at will (`Event.elsewhere`).

A live session after an event was live before, or the event opened it, or the event attached a thing
to it (`session?_step`).
-/

namespace DeviceAccess

namespace Gateway

/-- What happens to a gateway. -/
inductive Event where
  | openSession (now : Int) (clock : Nat) (source : IdentitySource) (text : String)
  | attachThing (clock : Nat) (source : IdentitySource) (id name : String)
  | mayPerform (clock : Nat) (id operation resource : String)
  | closeSession (id : String)
  | sweep (source : SweepSource)
  | closeIdle (clock timeout : Nat)
  | setCapacity (capacity : Nat)
  | applyGroups (document : GroupDocument)
  | elsewhere (world : World) (authority : AuthorityStore) (subscriptions : Subscriptions)

/-- The document that an event wants in force. -/
def Event.document? : Event → Option GroupDocument
  | .applyGroups document => some document
  | _ => none

variable (tk : Toolkit)

/-- The gateway after an event. -/
def step (g : Gateway) : Event → Gateway
  | .openSession now clock source text => (g.openSession tk now clock source text).gateway
  | .attachThing clock source id name => (g.attachThing clock source id name).gateway
  | .mayPerform clock id operation resource => (g.mayPerform clock id operation resource).1
  | .closeSession id => (g.closeSession id).1
  | .sweep source => (g.sweep source).1
  | .closeIdle clock timeout => (g.closeIdle clock timeout).1
  | .setCapacity capacity => { g with sessions := g.sessions.setCapacity capacity }
  | .applyGroups document => (g.applyGroups document).1
  | .elsewhere world authority subscriptions => { g with world, authority, subscriptions }

/-- The gateway after events, one after the other. -/
def run (g : Gateway) (events : List Event) : Gateway := events.foldl (step tk) g

/-- The live session of an id. -/
def session? (g : Gateway) (id : String) : Option Session := g.sessions.cache.peek? id

theorem run_append (g : Gateway) (events more : List Event) :
    g.run tk (events ++ more) = (g.run tk events).run tk more :=
  List.foldl_append

theorem run_concat (g : Gateway) (events : List Event) (event : Event) :
    g.run tk (events ++ [event]) = (g.run tk events).step tk event := by
  rw [run_append]
  rfl

/-! ### What events leave alone -/

variable {tk} {g : Gateway} {id : String} {s : Session}

/-- Attaching a thing changes sessions only. -/
theorem attachThing_frame (g : Gateway) (clock : Nat) (source : IdentitySource) (id name : String) :
    ∃ sessions, (g.attachThing clock source id name).gateway = { g with sessions } := by
  unfold attachThing
  split
  · exact ⟨_, rfl⟩
  · split
    · exact ⟨_, rfl⟩
    · simp only
      split
      · exact ⟨_, rfl⟩
      · split
        · exact ⟨_, rfl⟩
        · exact ⟨_, rfl⟩

theorem mayPerform_frame (g : Gateway) (clock : Nat) (id operation resource : String) :
    ∃ sessions, (g.mayPerform clock id operation resource).1 = { g with sessions } := by
  unfold mayPerform
  split
  · exact ⟨_, rfl⟩
  · split
    · exact ⟨_, rfl⟩
    · exact ⟨_, rfl⟩

theorem closeSession_frame (g : Gateway) (id : String) :
    ∃ sessions, (g.closeSession id).1 = { g with sessions } := by
  unfold closeSession
  split
  · exact ⟨_, rfl⟩
  · split
    · exact ⟨_, rfl⟩
    · exact ⟨_, rfl⟩

/-! ### Groups -/

/-- Events change the groups in force only by documents. -/
theorem groups_step (g : Gateway) (event : Event) :
    (g.step tk event).groups = match event.document? with
      | some document => (g.groups.apply document).1
      | none => g.groups := by
  cases event with
  | openSession now clock source text =>
      show (g.openSession tk now clock source text).gateway.groups = g.groups
      unfold openSession
      split
      · rfl
      · split
        · rfl
        · rfl
        · rfl
  | attachThing clock source id name =>
      obtain ⟨_, hframe⟩ := g.attachThing_frame clock source id name
      show (g.attachThing clock source id name).gateway.groups = g.groups
      rw [hframe]
  | mayPerform clock id operation resource =>
      obtain ⟨_, hframe⟩ := g.mayPerform_frame clock id operation resource
      show (g.mayPerform clock id operation resource).1.groups = g.groups
      rw [hframe]
  | closeSession id =>
      obtain ⟨_, hframe⟩ := g.closeSession_frame id
      show (g.closeSession id).1.groups = g.groups
      rw [hframe]
  | sweep source => rfl
  | closeIdle clock timeout => rfl
  | setCapacity capacity => rfl
  | applyGroups document => rfl
  | elsewhere world authority subscriptions => rfl

/-- After a run from no groups those of its documents are in force. -/
theorem groups_run (h : g.groups = .empty) (events : List Event) :
    (g.run tk events).groups = Groups.applyAll (events.filterMap Event.document?) := by
  induction events using List.reverseRecOn with
  | nil => exact h
  | append_singleton events event ih =>
      rw [run_concat, groups_step, ih, List.filterMap_append]
      unfold Groups.applyAll
      cases hdoc : event.document? with
      | none => rw [List.filterMap_cons_none hdoc, List.filterMap_nil, List.append_nil]
      | some document =>
          rw [List.filterMap_cons_some hdoc, List.filterMap_nil, List.foldl_append]
          rfl

/-! ### Sessions -/

/-- The event opens a session for a certificate that the identity source, when asked, reports
active. -/
def Opens (tk : Toolkit) (g : Gateway) (event : Event) (id : String)
    (certificate : DeviceCertificate) : Prop :=
  ∃ now clock source text,
    event = .openSession now clock source text ∧
    source.activeId text = .ok (some certificate.id) ∧
    certificate.hash = certificateHash text ∧
    certificate.active = true ∧
    (g.openSession tk now clock source text).asked = [.certificate text] ∧
    (g.openSession tk now clock source text).result = .ok id

/-- The event asks whether a thing is attached to the certificate of a session, and the answer of
the identity source is `attached`. -/
def Asks (g : Gateway) (event : Event) (id : String) (thing : Thing)
    (certificate : DeviceCertificate) (attached : Bool) : Prop :=
  ∃ clock source name,
    event = .attachThing clock source id name ∧
    Thing.ofName name = .ok thing ∧
    (g.attachThing clock source id name).asked = [.attachment thing certificate.id] ∧
    source.isAttached thing certificate.id = .ok attached

/-- A decision changes no session. -/
theorem session?_mayPerform (g : Gateway) (clock : Nat) (id' operation resource id : String) :
    (g.mayPerform clock id' operation resource).1.session? id = g.session? id := by
  unfold mayPerform
  split
  · rfl
  · rw [SessionManager.find_eq]
    cases g.sessions.cache.peek? id' with
    | none => exact SessionCache.peek?_touch ..
    | some s' => exact SessionCache.peek?_touch ..

theorem session?_of_closeSession {id' : String}
    (h : (g.closeSession id').1.session? id = some s) : g.session? id = some s := by
  unfold closeSession at h
  split at h
  · exact h
  · have hclose : (g.sessions.close id').1.cache.peek? id = some s := by
      split at h
      · next hresult =>
          rw [hresult]
          exact h
      · next hresult =>
          rw [hresult]
          exact h
    exact SessionManager.peek?_of_close hclose

theorem session?_onDisk {α : Type} (g : Gateway) (f : Disk → Disk × Except Fault α) (id : String) :
    (g.onDisk f).1.session? id = g.session? id := rfl

theorem session?_of_keepSession {clock : Nat} {opened : Session} {kept : Gateway × String}
    (hkept : g.keepSession clock opened = kept) (h : kept.1.session? id = some s) :
    g.session? id = some s ∨ (id = kept.2 ∧ s = opened) := by
  subst hkept
  have hinsert : (g.sessions.cache.insert (g.keepSession clock opened).2 opened clock
      g.sessions.capacity).1.peek? id = some s := h
  rcases SessionCache.peek?_of_insert hinsert with hlive | ⟨_, hid, hs⟩
  · exact Or.inl hlive
  · exact Or.inr ⟨hid, hs⟩

/-- What an opening does for a certificate that is active and not the gateway's own. -/
theorem openSession_eq {now : Int} {source : IdentitySource} {text cid : String}
    (hown : ¬g.authority.isOwn tk now text = true) (hactive : source.activeId text = .ok (some cid))
    (clock : Nat) :
    g.openSession tk now clock source text =
      let hash := certificateHash text
      let stored := (g.onDisk (DeviceFiles.store g.authority.workDir hash text)).1
      let kept := stored.keepSession clock (.ofCertificate ⟨hash, cid, true⟩)
      ⟨kept.1, [.certificate text], .ok kept.2⟩ := by
  unfold openSession
  rw [if_neg hown, hactive]

theorem session?_of_openSession {now : Int} {clock : Nat} {source : IdentitySource}
    {text : String}
    (h : (g.openSession tk now clock source text).gateway.session? id = some s) :
    g.session? id = some s ∨ ∃ certificate,
      Opens tk g (.openSession now clock source text) id certificate ∧
        s = .ofCertificate certificate := by
  by_cases hown : g.authority.isOwn tk now text = true
  · unfold openSession at h
    rw [if_pos hown] at h
    exact Or.inl h
  · cases hactive : source.activeId text with
    | error e =>
        unfold openSession at h
        rw [if_neg hown, hactive] at h
        exact Or.inl h
    | ok cid? =>
        cases cid? with
        | none =>
            unfold openSession at h
            rw [if_neg hown, hactive] at h
            exact Or.inl h
        | some cid =>
            have heq := openSession_eq hown hactive clock
            simp only at heq
            generalize hkept : keepSession _ clock _ = kept at heq
            rw [heq] at h
            rcases session?_of_keepSession hkept h with hlive | ⟨rfl, rfl⟩
            · rw [session?_onDisk] at hlive
              exact Or.inl hlive
            · refine Or.inr ⟨⟨certificateHash text, cid, true⟩,
                ⟨now, clock, source, text, rfl, hactive, rfl, rfl, ?_, ?_⟩, rfl⟩
              · rw [heq]
              · rw [heq]

/-- What attaching a thing does when nothing stands in its way. -/
theorem attachThing_eq {certificate : DeviceCertificate} {thing : Thing} {name : String}
    (hid : id ≠ componentId) (hlive : g.session? id = some s)
    (hcert : s.certificate? = some certificate) (hname : Thing.ofName name = .ok thing)
    (clock : Nat) (source : IdentitySource) :
    g.attachThing clock source id name =
      let a := s.attach (thingAnswer source thing certificate.id)
      ⟨{ g with sessions := (g.sessions.find id clock).1.update id fun _ => a.session },
        if a.asked then [.attachment thing certificate.id] else [], a.result.map fun _ => ()⟩ := by
  unfold session? at hlive
  unfold attachThing
  rw [if_neg hid, SessionManager.find_eq, hlive]
  simp only [hcert, hname]

theorem session?_attachThing {certificate : DeviceCertificate} {thing : Thing} {name : String}
    (hid : id ≠ componentId) (hlive : g.session? id = some s)
    (hcert : s.certificate? = some certificate) (hname : Thing.ofName name = .ok thing)
    (clock : Nat) (source : IdentitySource) (id' : String) :
    (g.attachThing clock source id name).gateway.session? id' =
      if id = id' then some (s.attach (thingAnswer source thing certificate.id)).session
      else g.session? id' := by
  rw [attachThing_eq hid hlive hcert hname]
  show (SessionCache.update (g.sessions.find id clock).1.cache id fun _ =>
    (s.attach (thingAnswer source thing certificate.id)).session).peek? id' = _
  unfold session? at hlive ⊢
  rw [SessionCache.peek?_update, SessionManager.find_eq]
  simp only [SessionCache.peek?_touch, hlive, Option.map_some]

/-- A session changes by an attempt to attach only if its thing was not resolved and the identity
source answers. -/
theorem eq_or_resolved_of_attach {source : IdentitySource} {thing : Thing} {cid : String} :
    ((s.attach (thingAnswer source thing cid)).session = s) ∨
      (s.facet = .unresolved ∧ (s.attach (thingAnswer source thing cid)).asked = true ∧
        ∃ attached, source.isAttached thing cid = .ok attached ∧
          (s.attach (thingAnswer source thing cid)).session =
            { s with facet := .resolved (if attached then some thing else none) }) := by
  unfold Session.attach thingAnswer
  cases hfacet : s.facet with
  | resolved thing' => exact Or.inl rfl
  | unresolved =>
      cases hanswer : source.isAttached thing cid with
      | error e => exact Or.inl rfl
      | ok attached =>
          refine Or.inr ⟨rfl, ?_⟩
          cases attached with
          | true => exact ⟨rfl, true, rfl, rfl⟩
          | false => exact ⟨rfl, false, rfl, rfl⟩

theorem session?_of_attachThing {clock : Nat} {source : IdentitySource} {id' name : String}
    (h : (g.attachThing clock source id' name).gateway.session? id = some s) :
    g.session? id = some s ∨ ∃ s₀ certificate thing attached,
      g.session? id = some s₀ ∧ s₀.facet = .unresolved ∧ s₀.certificate? = some certificate ∧
        Asks g (.attachThing clock source id' name) id thing certificate attached ∧
        s = { s₀ with facet := .resolved (if attached then some thing else none) } := by
  have htouch : ∀ {s'}, (g.sessions.cache.touch id' clock).1.peek? id = some s' →
      g.session? id = some s' := fun hs' => (SessionCache.peek?_touch ..).symm.trans hs'
  have hstep := h
  unfold attachThing at h
  split at h
  · exact Or.inl h
  · next hid =>
      rw [SessionManager.find_eq] at h
      cases hlive : g.sessions.cache.peek? id' with
      | none =>
          rw [hlive] at h
          exact Or.inl (htouch h)
      | some s₀ =>
          rw [hlive] at h
          simp only at h
          split at h
          · exact Or.inl (htouch h)
          · next certificate hcert =>
              split at h
              · exact Or.inl (htouch h)
              · next thing hname =>
                  rw [session?_attachThing hid hlive hcert hname] at hstep
                  split at hstep
                  · next hsame =>
                      subst hsame
                      obtain rfl := Option.some.inj hstep
                      rcases eq_or_resolved_of_attach with hkept | ⟨hfacet, hasked, attached, hanswer, hs⟩
                      · rw [hkept]
                        exact Or.inl hlive
                      · refine Or.inr ⟨s₀, certificate, thing, attached, hlive, hfacet, hcert,
                          ⟨clock, source, name, rfl, hname, ?_, hanswer⟩, hs⟩
                        rw [attachThing_eq hid hlive hcert hname]
                        exact if_pos hasked
                  · exact Or.inl hstep

/-- **What one event does to the sessions.**  A session that is live after an event was live before
and is the same, or the event opened it, or the event resolved its thing. -/
theorem session?_step {event : Event} (h : (g.step tk event).session? id = some s) :
    g.session? id = some s ∨
      (∃ certificate, Opens tk g event id certificate ∧ s = .ofCertificate certificate) ∨
      ∃ s₀ certificate thing attached,
        g.session? id = some s₀ ∧ s₀.facet = .unresolved ∧ s₀.certificate? = some certificate ∧
          Asks g event id thing certificate attached ∧
          s = { s₀ with facet := .resolved (if attached then some thing else none) } := by
  cases event with
  | openSession now clock source text =>
      rcases session?_of_openSession h with hlive | hopens
      · exact Or.inl hlive
      · exact Or.inr (Or.inl hopens)
  | attachThing clock source id' name =>
      rcases session?_of_attachThing h with hlive | hasks
      · exact Or.inl hlive
      · exact Or.inr (Or.inr hasks)
  | mayPerform clock id' operation resource =>
      left
      change (g.mayPerform clock id' operation resource).1.session? id = some s at h
      rwa [session?_mayPerform] at h
  | closeSession id' =>
      left
      change (g.closeSession id').1.session? id = some s at h
      exact session?_of_closeSession h
  | sweep source => exact Or.inl (SessionManager.peek?_of_refresh h)
  | closeIdle clock timeout => exact Or.inl (SessionManager.peek?_of_closeIdle h)
  | setCapacity capacity => exact Or.inl h
  | applyGroups document => exact Or.inl h
  | elsewhere world authority subscriptions => exact Or.inl h

end Gateway

end DeviceAccess
