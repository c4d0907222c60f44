import DeviceAccess.Deployment.Basic
import DeviceAccess.Proofs.Gateway.CertificateRuns

/-!
# Uploads that overtake each other

The registrations of the authority for one core device, as they run beside each other while the
authority is replaced.  An upload reads the signing certificate once, before its first call to the
registrar, and repeats the same call as long as the registrar refuses it for the moment.  Nothing stops
an upload when the authority is replaced and another one starts.

When all uploads have ended, one that started after the last change of the signing certificate has
registered the current one.  The registrar keeps it if no upload with an older certificate is accepted
later (`UploadRun.registered_of_ended`); an upload that is refused for long enough does come later
(`UploadRun.registered_overtaken`).
-/

namespace DeviceAccess

namespace UploadRun

/-- A deployment with the uploads of one core device. -/
structure State where
  deployment : Deployment
  /-- The uploads, oldest first; none for one that has ended. -/
  uploads : List (Option Upload)

/-- What happens to the authority and to the uploads. -/
inductive Event where
  | generate (now : Int) (keyType : KeyType)
  | install (now : Int) (key : String) (chain : List String)
  /-- Something else writes files or draws random bytes. -/
  | elsewhere (world : World)
  /-- An upload starts. -/
  | start
  /-- An upload reads the signing certificate, if it has not done so. -/
  | fetch (i : Nat)
  /-- An upload calls the registrar, which may refuse the call. -/
  | attempt (i : Nat) (refusal : Option Fault)

namespace State

/-- The signing certificate in force. -/
def signing? (s : State) : Option String := s.deployment.gateway.authority.material.map (·.signing)

/-- An upload that has not ended. -/
def running? (s : State) (i : Nat) : Option Upload := s.uploads[i]?.join

/-- The certificate that an upload registers: the one it has read, else the one in force. -/
def carried (s : State) (u : Upload) : Option String := u.certificate.or s.signing?

/-- What is registered for a core device. -/
def registered (s : State) (thing : String) : Option (List String) :=
  s.deployment.registry.authorities.get? thing

/-- All uploads have ended. -/
def Ended (s : State) : Prop := ∀ u ∈ s.uploads, u = none

instance (s : State) : Decidable s.Ended := inferInstanceAs (Decidable (∀ u ∈ s.uploads, u = none))

theorem Ended.running? {s : State} (h : s.Ended) (i : Nat) : s.running? i = none := by
  unfold State.running?
  cases hi : s.uploads[i]? with
  | none => rfl
  | some u => exact h u (List.mem_of_getElem? hi)

/-- Replaces the gateway. -/
def setGateway (s : State) (gateway : Gateway) : State :=
  { s with deployment := { s.deployment with gateway } }

end State

variable (tk : Toolkit) (thing : String)

/-- The state after an event. -/
def step (s : State) : Event → State
  | .generate now keyType =>
    s.setGateway (s.deployment.gateway.generateAuthority tk now keyType).1
  | .install now key chain =>
    s.setGateway (s.deployment.gateway.importAuthority tk now ⟨key, chain⟩).1
  | .elsewhere world => s.setGateway { s.deployment.gateway with world }
  | .start => { s with uploads := s.uploads ++ [some ⟨thing, none, 0⟩] }
  | .fetch i =>
    match s.running? i with
    | none => s
    | some u =>
      { s with
        uploads := s.uploads.set i ((s.carried u).map fun c => { u with certificate := some c }) }
  | .attempt i refusal =>
    match s.running? i with
    | none => s
    | some u =>
      let registrarFaults := refusal.toList.map fun e => (e, false)
      let (deployment, left) := { s.deployment with registrarFaults }.uploadPass u
      ⟨deployment, s.uploads.set i (left.map (·.1))⟩

/-- The state after events, one after the other. -/
def run (s : State) (events : List Event) : State := events.foldl (step tk thing) s

/-- Every refusal is one that the registrar may take back. -/
def Retryable (events : List Event) : Prop :=
  ∀ i e, .attempt i (some e) ∈ events → e.isTransient = true

/-- The registrar accepts a certificate. -/
def Accepts (s : State) (event : Event) (c : String) : Prop :=
  ∃ i u, event = .attempt i none ∧ s.running? i = some u ∧ s.carried u = some c

variable {tk thing} {s : State} {event : Event} {events : List Event} {c : String} {k : Nat}

/-! ### Single calls -/

/-- There is an authority, the registrar can be reached, and all uploads are for the core device. -/
structure InOrder (thing : String) (s : State) : Prop where
  signing : ∃ c, s.signing? = some c
  online : s.deployment.registry.offline = false
  things : ∀ i u, s.running? i = some u → u.thing = thing

theorem InOrder.carried (h : InOrder thing s) (u : Upload) : ∃ c, s.carried u = some c := by
  obtain ⟨c, hc⟩ := h.signing
  unfold State.carried
  rw [hc]
  cases u.certificate with
  | none => exact ⟨c, rfl⟩
  | some c' => exact ⟨c', rfl⟩

/-- A call for the certificate that the upload has read or reads now. -/
theorem uploadPass_eq (d : Deployment) (registrarFaults : StagedFaults) {u : Upload}
    (hc : u.certificate.or (d.gateway.authority.material.map (·.signing)) = some c) :
    { d with registrarFaults }.uploadPass u =
      let (d, registrarFaults, r) :=
        { d with registrarFaults }.callRegistrar registrarFaults u.thing c
      ({ d with registrarFaults },
        (Deployment.uploadPolicy.next Fault.isTransient (u.calls + 1) r).map fun wait =>
          (⟨u.thing, some c, u.calls + 1⟩, wait.millis)) := by
  unfold Deployment.uploadPass AuthorityStore.inForce
  cases hcertificate : u.certificate with
  | some c' =>
      rw [hcertificate] at hc
      obtain rfl := Option.some.inj hc
      rfl
  | none =>
      rw [hcertificate] at hc
      cases hmaterial : d.gateway.authority.material with
      | none =>
          rw [hmaterial] at hc
          cases hc
      | some m =>
          rw [hmaterial] at hc
          obtain rfl := Option.some.inj hc
          rfl

/-- An upload that is refused for the moment goes on with the same certificate. -/
theorem step_refused (tk : Toolkit) (thing : String) {u : Upload} {e : Fault} (hu : s.running? k = some u)
    (hc : s.carried u = some c) (he : e.isTransient = true) :
    let s' := step tk thing s (.attempt k (some e))
    s'.deployment.gateway = s.deployment.gateway ∧
      s'.deployment.registry = s.deployment.registry ∧
      s'.uploads = s.uploads.set k (some ⟨u.thing, some c, u.calls + 1⟩) := by
  have hnext : ∀ calls, (Deployment.uploadPolicy.next Fault.isTransient calls
      (.error e : Except Fault Unit)) = some (Deployment.uploadPolicy.delay (calls - 1)) := by
    intro calls
    unfold RetryPolicy.next RetryPolicy.nextBy
    simp only [he]
    rfl
  unfold step
  simp only [hu]
  rw [uploadPass_eq s.deployment _ hc]
  unfold Deployment.callRegistrar
  simp only [Option.toList_some, List.map_cons, List.map_nil, StagedFaults.next, hnext]
  exact ⟨trivial, trivial, rfl⟩

/-- An upload that is accepted has registered its certificate and ends. -/
theorem step_accepted (tk : Toolkit) (thing : String) {u : Upload} (hu : s.running? k = some u) (hc : s.carried u = some c)
    (honline : s.deployment.registry.offline = false) :
    let s' := step tk thing s (.attempt k none)
    s'.deployment.gateway = s.deployment.gateway ∧
      s'.deployment.registry =
        { s.deployment.registry with
          authorities := s.deployment.registry.authorities.insert u.thing [c] } ∧
      s'.uploads = s.uploads.set k none := by
  unfold step
  simp only [hu]
  rw [uploadPass_eq s.deployment _ hc]
  unfold Deployment.callRegistrar IdentityRegistry.registerAuthorities IdentityRegistry.online
  simp only [Option.toList_none, List.map_nil, StagedFaults.next, honline]
  exact ⟨trivial, rfl, rfl⟩

theorem step_of_not_running (h : s.running? k = none) (refusal : Option Fault) :
    step tk thing s (.attempt k refusal) = s ∧ step tk thing s (.fetch k) = s := by
  unfold step
  simp only [h]
  exact ⟨trivial, trivial⟩

theorem running?_set {u : Upload} {s' : State} (hu : s.running? k = some u) {left : Option Upload}
    (h : s'.uploads = s.uploads.set k left) (i : Nat) :
    s'.running? i = if i = k then left else s.running? i := by
  have hk : k < s.uploads.length := by
    by_contra hlt
    unfold State.running? at hu
    rw [List.getElem?_eq_none (Nat.le_of_not_lt hlt)] at hu
    cases hu
  unfold State.running?
  rw [h]
  by_cases hi : i = k
  · subst hi
    rw [List.getElem?_set_self hk, if_pos rfl]
    rfl
  · rw [List.getElem?_set_ne (Ne.symm hi), if_neg hi]

theorem running?_start (s : State) (i : Nat) :
    (step tk thing s .start).running? i =
      if i = s.uploads.length then some ⟨thing, none, 0⟩ else s.running? i := by
  show ((s.uploads ++ [some ⟨thing, none, 0⟩])[i]?).join = _
  unfold State.running?
  rcases Nat.lt_trichotomy i s.uploads.length with hlt | rfl | hgt
  · rw [List.getElem?_append_left hlt, if_neg (Nat.ne_of_lt hlt)]
  · rw [List.getElem?_concat_length, if_pos rfl]
    rfl
  · rw [if_neg (Nat.ne_of_gt hgt), List.getElem?_eq_none (Nat.le_of_lt hgt),
      List.getElem?_eq_none (by rw [List.length_append]; exact hgt)]

/-! ### What one event does -/

/-- The three outcomes of an event: the authority may change and no upload does; uploads start or go on,
and nothing is registered; or an upload is accepted. -/
theorem step_cases (tk : Toolkit) (hs : InOrder thing s) (hretry : Retryable [event]) :
    let s' := step tk thing s event
    (s'.deployment.registry = s.deployment.registry ∧ s'.uploads = s.uploads ∧
        ∃ c, s'.signing? = some c) ∨
      (s'.deployment.registry = s.deployment.registry ∧ s'.signing? = s.signing? ∧
        ((∀ i, s'.running? i = if i = s.uploads.length then some ⟨thing, none, 0⟩ else s.running? i) ∨
          ∃ k u u', s'.uploads = s.uploads.set k (some u') ∧ s.running? k = some u ∧
            u'.thing = u.thing ∧ u'.certificate = s.carried u)) ∨
      ∃ k u c, event = .attempt k none ∧ s.running? k = some u ∧ s.carried u = some c ∧
        s'.signing? = s.signing? ∧ s'.uploads = s.uploads.set k none ∧
        s'.deployment.registry =
          { s.deployment.registry with
            authorities := s.deployment.registry.authorities.insert u.thing [c] } := by
  intro s'
  obtain ⟨c₀, hc₀⟩ := hs.signing
  have hready : s.deployment.gateway.authority.isReady = true := by
    unfold State.signing? at hc₀
    obtain ⟨m, hm, -⟩ := Option.map_eq_some_iff.1 hc₀
    unfold AuthorityStore.isReady
    rw [hm]
    rfl
  have hsigning : ∀ gateway : Gateway, gateway.authority.isReady = true →
      ∃ c, (s.setGateway gateway).signing? = some c := by
    intro gateway h
    obtain ⟨m, hm⟩ := Option.isSome_iff_exists.1 h
    exact ⟨m.signing, congrArg (Option.map AuthorityMaterial.signing) hm⟩
  cases event with
  | generate now keyType =>
      refine .inl ⟨rfl, rfl, hsigning _ ?_⟩
      unfold Gateway.generateAuthority
      rw [(CertificateRun.settle_cases tk now _ _).1]
      exact AuthorityStore.isReady_update hready tk now _ keyType
  | install now key chain =>
      refine .inl ⟨rfl, rfl, hsigning _ ?_⟩
      unfold Gateway.importAuthority
      rw [(CertificateRun.settle_cases tk now _ _).1]
      exact AuthorityStore.isReady_install hready tk _ key chain
  | elsewhere world => exact .inl ⟨rfl, rfl, c₀, hc₀⟩
  | start => exact .inr (.inl ⟨rfl, rfl, .inl (running?_start s)⟩)
  | fetch k =>
      cases hu : s.running? k with
      | none =>
          have hsame : s' = s := (step_of_not_running hu none).2
          rw [hsame]
          exact .inl ⟨rfl, rfl, c₀, hc₀⟩
      | some u =>
          obtain ⟨c, hc⟩ := hs.carried u
          have huploads : s'.uploads = s.uploads.set k (some { u with certificate := some c }) := by
            show (step tk thing s (.fetch k)).uploads = _
            unfold step
            simp only [hu, hc]
            rfl
          refine .inr (.inl ⟨?_, ?_, .inr ⟨k, u, _, huploads, hu, rfl, hc.symm⟩⟩)
          · show (step tk thing s (.fetch k)).deployment.registry = _
            unfold step
            simp only [hu]
          · show (step tk thing s (.fetch k)).signing? = _
            unfold step
            simp only [hu]
            rfl
  | attempt k refusal =>
      cases hu : s.running? k with
      | none =>
          have hsame : s' = s := (step_of_not_running hu refusal).1
          rw [hsame]
          exact .inl ⟨rfl, rfl, c₀, hc₀⟩
      | some u =>
          obtain ⟨c, hc⟩ := hs.carried u
          have hframe : ∀ {s'' : State}, s''.deployment.gateway = s.deployment.gateway →
              s''.signing? = s.signing? := by
            intro s'' h
            unfold State.signing?
            rw [h]
          cases refusal with
          | some e =>
              obtain ⟨hgateway, hregistry, huploads⟩ := step_refused tk thing hu hc
                (hretry k e (List.mem_singleton_self _))
              exact .inr (.inl ⟨hregistry, hframe hgateway, .inr ⟨k, u, _, huploads, hu, rfl, hc.symm⟩⟩)
          | none =>
              obtain ⟨hgateway, hregistry, huploads⟩ :=
                step_accepted tk thing hu hc hs.online
              exact .inr (.inr ⟨k, u, c, rfl, hu, hc, hframe hgateway, huploads, hregistry⟩)

theorem InOrder.step (hs : InOrder thing s) (hretry : Retryable [event]) :
    InOrder thing (step tk thing s event) := by
  rcases step_cases tk hs hretry with ⟨hregistry, huploads, hsigning⟩ |
    ⟨hregistry, hsigning, hrunning | ⟨k, u, u', huploads, hu, hthing, -⟩⟩ |
    ⟨k, u, c, -, hu, -, hsigning, huploads, hregistry⟩
  · refine ⟨hsigning, hregistry ▸ hs.online, fun i u hu => hs.things i u ?_⟩
    unfold State.running? at hu ⊢
    rw [huploads] at hu
    exact hu
  · refine ⟨hsigning ▸ hs.signing, hregistry ▸ hs.online, fun i u hu => ?_⟩
    rw [hrunning] at hu
    split at hu
    · exact Option.some.inj hu ▸ rfl
    · exact hs.things i u hu
  · refine ⟨hsigning ▸ hs.signing, hregistry ▸ hs.online, fun i u'' hu'' => ?_⟩
    rw [running?_set hu huploads] at hu''
    split at hu''
    · exact Option.some.inj hu'' ▸ hthing.trans (hs.things k u hu)
    · exact hs.things i u'' hu''
  · refine ⟨hsigning ▸ hs.signing, hregistry ▸ hs.online, fun i u'' hu'' => ?_⟩
    rw [running?_set hu huploads] at hu''
    split at hu''
    · cases hu''
    · exact hs.things i u'' hu''

theorem InOrder.run (hs : InOrder thing s) (hretry : Retryable events) :
    InOrder thing (run tk thing s events) := by
  induction events generalizing s with
  | nil => exact hs
  | cons event events ih =>
      refine ih (hs.step fun i e he => hretry i e ?_) fun i e he => hretry i e ?_
      · exact List.mem_singleton.1 he ▸ List.mem_cons_self
      · exact List.mem_cons_of_mem _ he

/-- What is registered is the certificate that was accepted last. -/
theorem registered_step (hs : InOrder thing s) (hretry : Retryable [event])
    (haccepts : ∀ c', Accepts s event c' → c' = c) (hc : s.registered thing = some [c]) :
    (step tk thing s event).registered thing = some [c] := by
  unfold State.registered at hc ⊢
  rcases step_cases tk hs hretry with ⟨hregistry, -⟩ | ⟨hregistry, -⟩ |
    ⟨k, u, c', hevent, hu, hc', -, -, hregistry⟩
  · rw [hregistry]
    exact hc
  · rw [hregistry]
    exact hc
  · obtain rfl := haccepts c' ⟨k, u, hevent, hu, hc'⟩
    rw [hregistry, hs.things k u hu]
    exact (OrderedMap.get?_insert _ _ _ _).trans (if_pos rfl)

theorem registered_of_accepts (hs : InOrder thing s) (hretry : Retryable [event])
    (h : Accepts s event c) : (step tk thing s event).registered thing = some [c] := by
  obtain ⟨k, u, rfl, hu, hc⟩ := h
  unfold State.registered
  rw [(step_accepted tk thing hu hc hs.online).2.1, hs.things k u hu]
  exact (OrderedMap.get?_insert _ _ _ _).trans (if_pos rfl)

/-- An upload goes on with the certificate that it carries, as long as the signing certificate stays
and the upload is not accepted. -/
theorem running?_step (tk : Toolkit) {u : Upload} (hs : InOrder thing s) (hretry : Retryable [event])
    (hu : s.running? k = some u) (hc : s.carried u = some c)
    (hsigning : (step tk thing s event).signing? = some c) (haccepts : ¬Accepts s event c) :
    ∃ u', (step tk thing s event).running? k = some u' ∧
      (step tk thing s event).carried u' = some c := by
  have hstays : (step tk thing s event).carried u = some c := by
    unfold State.carried at hc ⊢
    rw [hsigning]
    cases hcertificate : u.certificate with
    | none => rfl
    | some c' =>
        rw [hcertificate] at hc
        exact hc
  rcases step_cases tk hs hretry with ⟨-, huploads, -⟩ |
    ⟨-, -, hrunning | ⟨k', u', u'', huploads, hu', -, hcarried⟩⟩ |
    ⟨k', u', c', hevent, hu', hc', -, huploads, -⟩
  · refine ⟨u, ?_, hstays⟩
    unfold State.running? at hu ⊢
    rw [huploads]
    exact hu
  · refine ⟨u, ?_, hstays⟩
    rw [hrunning, if_neg, hu]
    rintro rfl
    unfold State.running? at hu
    rw [List.getElem?_eq_none (Nat.le_refl _)] at hu
    cases hu
  · rw [running?_set hu' huploads]
    split
    · next heq =>
        subst heq
        obtain rfl := Option.some.inj (hu.symm.trans hu')
        refine ⟨u'', rfl, ?_⟩
        unfold State.carried
        rw [hcarried, hc]
        rfl
    · exact ⟨u, hu, hstays⟩
  · rw [running?_set hu' huploads]
    split
    · next heq =>
        subst heq
        obtain rfl := Option.some.inj (hu.symm.trans hu')
        obtain rfl := Option.some.inj (hc.symm.trans hc')
        exact absurd ⟨k, u, hevent, hu, hc⟩ haccepts
    · exact ⟨u, hu, hstays⟩

/-! ### Runs -/

theorem run_append (tk : Toolkit) (thing : String) (s : State) (events more : List Event) :
    run tk thing s (events ++ more) = run tk thing (run tk thing s events) more :=
  List.foldl_append

theorem run_middle (tk : Toolkit) (thing : String) (s : State) (before : List Event) (event : Event)
    (after : List Event) :
    run tk thing s (before ++ event :: after) =
      run tk thing (step tk thing (run tk thing s before) event) after :=
  run_append tk thing s before (event :: after)

theorem Retryable.of_subset {more : List Event} (h : Retryable events)
    (hmore : ∀ event ∈ more, event ∈ events) : Retryable more :=
  fun i e he => h i e (hmore _ he)

/-- What is registered stays if nothing else is accepted. -/
theorem registered_run (hs : InOrder thing s) (hretry : Retryable events)
    (haccepts : ∀ before event after c', events = before ++ event :: after →
      Accepts (run tk thing s before) event c' → c' = c)
    (hc : s.registered thing = some [c]) : (run tk thing s events).registered thing = some [c] := by
  induction events generalizing s with
  | nil => exact hc
  | cons event events ih =>
      have hevent : Retryable [event] :=
        hretry.of_subset fun e he => List.mem_singleton.1 he ▸ List.mem_cons_self
      refine ih (hs.step hevent) (hretry.of_subset fun e he => List.mem_cons_of_mem _ he) ?_ ?_
      · rintro before event' after c' rfl h
        exact haccepts (event :: before) event' after c' rfl h
      · exact registered_step hs hevent (fun c' h => haccepts [] event events c' rfl h) hc

/-- An upload that ends while the signing certificate stays was accepted with it. -/
theorem exists_accepts {u : Upload} (hs : InOrder thing s) (hretry : Retryable events)
    (hu : s.running? k = some u) (hc : s.carried u = some c)
    (hsigning : ∀ before after, events = before ++ after →
      (run tk thing s before).signing? = some c)
    (hended : (run tk thing s events).running? k = none) :
    ∃ before event after, events = before ++ event :: after ∧
      Accepts (run tk thing s before) event c := by
  induction events generalizing s u with
  | nil => exact absurd (hu.symm.trans hended) nofun
  | cons event events ih =>
      have hevent : Retryable [event] :=
        hretry.of_subset fun e he => List.mem_singleton.1 he ▸ List.mem_cons_self
      by_cases haccepts : Accepts s event c
      · exact ⟨[], event, events, rfl, haccepts⟩
      · obtain ⟨u', hu', hc'⟩ := running?_step tk hs hevent hu hc
          (hsigning [event] events rfl) haccepts
        obtain ⟨before, event', after, rfl, h⟩ := ih (hs.step hevent)
          (hretry.of_subset fun e he => List.mem_cons_of_mem _ he) hu' hc'
          (fun before after heq => hsigning (event :: before) after (heq ▸ rfl)) hended
        exact ⟨event :: before, event', after, rfl, h⟩

/-- **What is registered in the end.**  The registrar can be reached and refuses calls for the moment
only.  If all uploads have ended and one started after the last change of the signing certificate, then
the current signing certificate was accepted after that start, and it is what is registered for the core
device, unless an upload with another certificate was accepted still later. -/
theorem registered_of_ended (tk : Toolkit) (thing : String) (d : Deployment)
    (hready : d.gateway.authority.isReady = true) (honline : d.registry.offline = false)
    (before after : List Event) (hretry : Retryable (before ++ .start :: after))
    (hsigning : ∀ mid rest, after = mid ++ rest →
      (run tk thing ⟨d, []⟩ (before ++ .start :: mid)).signing? =
        (run tk thing ⟨d, []⟩ (before ++ .start :: after)).signing?)
    (hended : (run tk thing ⟨d, []⟩ (before ++ .start :: after)).Ended) :
    ∃ c mid event rest, after = mid ++ event :: rest ∧
      (run tk thing ⟨d, []⟩ (before ++ .start :: after)).signing? = some c ∧
      Accepts (run tk thing ⟨d, []⟩ (before ++ .start :: mid)) event c ∧
      ((∀ mid' event' rest' c', rest = mid' ++ event' :: rest' →
          Accepts (run tk thing ⟨d, []⟩ (before ++ .start :: mid ++ event :: mid')) event' c' →
          c' = c) →
        (run tk thing ⟨d, []⟩ (before ++ .start :: after)).registered thing = some [c]) := by
  have hnew : InOrder thing ⟨d, []⟩ := by
    obtain ⟨m, hm⟩ := Option.isSome_iff_exists.1 hready
    exact ⟨⟨m.signing, congrArg (Option.map AuthorityMaterial.signing) hm⟩, honline, nofun⟩
  have hall : InOrder thing (run tk thing ⟨d, []⟩ (before ++ .start :: after)) := hnew.run hretry
  obtain ⟨c, hc⟩ := hall.signing
  let s := step tk thing (run tk thing ⟨d, []⟩ before) .start
  have hrun : ∀ events, run tk thing ⟨d, []⟩ (before ++ .start :: events) = run tk thing s events :=
    fun events => run_middle tk thing _ before .start events
  have hs : InOrder thing s :=
    (hnew.run (hretry.of_subset fun e he => List.mem_append_left _ he)).step fun i e he =>
      nomatch List.mem_singleton.1 he
  have hafter : Retryable after :=
    hretry.of_subset fun e he => List.mem_append_right _ (List.mem_cons_of_mem _ he)
  rw [hrun] at hc hended ⊢
  -- The upload that starts here carries whatever certificate is in force when it reads it.
  have hstart : s.running? (run tk thing ⟨d, []⟩ before).uploads.length = some ⟨thing, none, 0⟩ := by
    rw [running?_start, if_pos rfl]
  have hkept : ∀ mid rest, after = mid ++ rest → (run tk thing s mid).signing? = some c := by
    intro mid rest heq
    have h := hsigning mid rest heq
    rw [hrun, hrun] at h
    exact h.trans hc
  obtain ⟨mid, event, rest, rfl, haccepts⟩ := exists_accepts hs hafter hstart (hkept [] after rfl)
    hkept (hended.running? _)
  refine ⟨c, mid, event, rest, rfl, hc, by rw [hrun]; exact haccepts, fun hothers => ?_⟩
  have hmid : InOrder thing (run tk thing s mid) :=
    hs.run (hafter.of_subset fun e he => List.mem_append_left _ he)
  have hevent : Retryable [event] := hafter.of_subset fun e he =>
    List.mem_append_right _ (List.mem_singleton.1 he ▸ List.mem_cons_self)
  rw [run_middle]
  refine registered_run (hmid.step hevent) (hafter.of_subset fun e he =>
    List.mem_append_right _ (List.mem_cons_of_mem _ he)) ?_ (registered_of_accepts hmid hevent haccepts)
  rintro mid' event' rest' c' rfl h
  refine hothers mid' event' rest' c' rfl ?_
  rw [List.append_assoc, List.cons_append, hrun, run_middle]
  exact h

/-! ### A registrar that is busy -/

/-- A deployment with a generated authority. -/
def generated : Deployment :=
  .new (Gateway.generateAuthority CertificateRun.plainToolkit 0
    (.new CertificateRun.emptyWorld ⟨"/work"⟩ .standard) .ecdsaP256).1 .empty 0

/-- The registrar refuses an upload for the moment, and another authority is imported. -/
def busyStart : List Event :=
  [.start, .attempt 0 (some (.cloud .throttling "busy")), .install 0 "key" ["imported"]]

/-- The registrar accepts the first upload before the second one starts. -/
def orderedRun : List Event := (busyStart ++ [.attempt 0 none]) ++ .start :: [.attempt 1 none]

/-- The registrar accepts the first upload after the second one. -/
def overtakenRun : List Event := busyStart ++ .start :: [.attempt 1 none, .attempt 0 none]

/-- In order, the imported authority is registered in the end. -/
theorem registered_of_ended_ordered :
    Retryable orderedRun ∧
      (run CertificateRun.plainToolkit "core" ⟨generated, []⟩ orderedRun).Ended ∧
      (run CertificateRun.plainToolkit "core" ⟨generated, []⟩ orderedRun).registered "core" =
        some ["imported"] := by
  have hretry : Retryable orderedRun := by
    intro i e he
    simp [orderedRun, busyStart] at he
    rw [he.2]
    rfl
  have hended : (run CertificateRun.plainToolkit "core" ⟨generated, []⟩ orderedRun).Ended ∧
      (run CertificateRun.plainToolkit "core" ⟨generated, []⟩ orderedRun).signing? =
        some "imported" := by
    decide +kernel
  have hsigning : ∀ mid rest, [Event.attempt 1 none] = mid ++ rest →
      (run CertificateRun.plainToolkit "core" ⟨generated, []⟩
        ((busyStart ++ [Event.attempt 0 none]) ++ .start :: mid)).signing? =
      (run CertificateRun.plainToolkit "core" ⟨generated, []⟩ orderedRun).signing? := by
    intro mid rest heq
    rw [hended.2]
    rcases List.singleton_eq_append_iff.1 heq with ⟨rfl, -⟩ | ⟨rfl, -⟩
    · decide +kernel
    · exact hended.2
  obtain ⟨c, mid, event, rest, heq, hc, -, hregistered⟩ := registered_of_ended
    CertificateRun.plainToolkit "core" generated (by decide +kernel) (by decide +kernel)
    (busyStart ++ [Event.attempt 0 none]) [.attempt 1 none] hretry hsigning hended.1
  obtain rfl := Option.some.inj (hended.2.symm.trans hc)
  refine ⟨hretry, hended.1, hregistered ?_⟩
  rintro mid' event' rest' c' rfl
  rcases List.singleton_eq_append_iff.1 heq with ⟨-, h⟩ | ⟨-, h⟩
  · exact absurd (List.cons.inj h).2 (List.append_ne_nil_of_right_ne_nil _ (List.cons_ne_nil _ _))
  · cases h

/-- **An upload that comes late.**  Every upload was accepted and one started after every change of the
authority, but what is registered in the end is the authority that was replaced. -/
theorem registered_overtaken :
    Retryable overtakenRun ∧
      (run CertificateRun.plainToolkit "core" ⟨generated, []⟩ overtakenRun).Ended ∧
      (run CertificateRun.plainToolkit "core" ⟨generated, []⟩ overtakenRun).signing? =
        some "imported" ∧
      (run CertificateRun.plainToolkit "core" ⟨generated, []⟩ overtakenRun).registered "core" =
        some ["Edge Trust Core CA"] := by
  refine ⟨?_, by decide +kernel⟩
  intro i e he
  simp [overtakenRun, busyStart] at he
  rw [he.2]
  rfl

end UploadRun

end DeviceAccess
