import DeviceAccess.Gateway.Basic
import DeviceAccess.Proofs.Leaf.Registry

/-!
# Whom one event calls

What happens to a gateway as far as its certificates are concerned: subscribing and giving up,
authorities that are generated and imported, addresses that are recorded, settings that change.  In
between the disk and the random bytes may become any others.

An event first arranges the subscriptions (`CertificateRun.arranged`) and then hands bundles over.  If
no issuance fails, it calls exactly the subscriptions that `CertificateRun.Calls` names, each of them
once (`CertificateRun.step_handed`).
-/

namespace DeviceAccess

namespace CertificateRun

/-- What happens to the certificates of a gateway. -/
inductive Event where
  | subscribe (now : Int) (key : SubscriptionKey) (recipient : Recipient)
  | unsubscribe (key : SubscriptionKey)
  | generate (now : Int) (keyType : KeyType)
  | install (now : Int) (key : String) (chain : List String)
  | recordAddresses (now : Int) (source : String) (addresses : List HostAddress)
  | configure (settings : LeafSettings)
  /-- Something else writes files or draws random bytes. -/
  | elsewhere (world : World)

variable (tk : Toolkit)

/-- The gateway after an event. -/
def step (g : Gateway) : Event → Gateway
  | .subscribe now key recipient => (g.subscribe tk now key recipient).1
  | .unsubscribe key => (g.unsubscribe key).1
  | .generate now keyType => (g.generateAuthority tk now keyType).1
  | .install now key chain => (g.importAuthority tk now ⟨key, chain⟩).1
  | .recordAddresses now source addresses => (g.recordAddresses tk now source addresses).1
  | .configure settings => { g with subscriptions := g.subscriptions.configure settings }
  | .elsewhere world => { g with world }

/-- The addresses that are reported when an event is over. -/
def reported (r : Reachability) : Event → Reachability
  | .recordAddresses _ source addresses => (r.record source addresses).1
  | _ => r

/-- The settings in force when an event is over. -/
def configured (settings : LeafSettings) : Event → LeafSettings
  | .configure settings => settings.clamped
  | _ => settings

/-- The gateway after events, one after the other. -/
def run (g : Gateway) (events : List Event) : Gateway := events.foldl (step tk) g

/-! ### Runs without failing issuances -/

/-- Whether a key can be drawn for a new subscription. -/
def keyDrawn (g : Gateway) : Bool :=
  (g.world.draw (tk.newKey g.subscriptions.settings.keyType)).2.isOk

/-- If an operation on the authority changes the chain, no issuance that follows fails. -/
def RotationSucceeds (now : Int) (g : Gateway) (o : AuthorityOutcome) : Prop :=
  o.changed ≠ none → g.subscriptions.AllIssued tk now o.store (fun _ => true) o.world

/-- No issuance of an event fails. -/
def Succeeds (g : Gateway) : Event → Prop
  | .subscribe now key recipient =>
    keyDrawn tk g = true → (g.subscribe tk now key recipient).2 = .ok ()
  | .generate now keyType =>
    RotationSucceeds tk now g (g.authority.update tk now g.world keyType)
  | .install now key chain =>
    RotationSucceeds tk now g (g.authority.install tk g.world key chain)
  | .recordAddresses now source addresses =>
    let reachability := (g.subscriptions.reachability.record source addresses).1
    let m := { g.subscriptions with reachability }
    g.authority.isReady = true → reachability.all ≠ g.subscriptions.reachability.all →
      m.AllIssued tk now g.authority (fun s => s.kind = .server) g.world
  | .unsubscribe _ | .configure _ | .elsewhere _ => True

/-- No issuance of a run fails. -/
def NoFailures (g : Gateway) : List Event → Prop
  | [] => True
  | event :: events => Succeeds tk g event ∧ NoFailures (step tk g event) events

instance (now : Int) (g : Gateway) (o : AuthorityOutcome) :
    Decidable (RotationSucceeds tk now g o) :=
  inferInstanceAs (Decidable (o.changed ≠ none → (_ : Nat) = _))

instance decidableSucceeds (g : Gateway) : (event : Event) → Decidable (Succeeds tk g event)
  | .subscribe now key recipient =>
    inferInstanceAs
      (Decidable (keyDrawn tk g = true → (g.subscribe tk now key recipient).2 = .ok ()))
  | .generate now _ => inferInstanceAs (Decidable (RotationSucceeds tk now g _))
  | .install now _ _ => inferInstanceAs (Decidable (RotationSucceeds tk now g _))
  | .recordAddresses _ _ _ =>
    inferInstanceAs (Decidable
      (g.authority.isReady = true → (_ : OrderedSet HostAddress) ≠ _ → (_ : Nat) = _))
  | .unsubscribe _ | .configure _ | .elsewhere _ => inferInstanceAs (Decidable True)

instance decidableNoFailures :
    (g : Gateway) → (events : List Event) → Decidable (NoFailures tk g events)
  | _, [] => inferInstanceAs (Decidable True)
  | g, event :: events =>
    let _ := decidableNoFailures (step tk g event) events
    inferInstanceAs
      (Decidable (Succeeds tk g event ∧ NoFailures tk (step tk g event) events))

/-! ### Who is called -/

/-- The subscription of number `n` is called by an event.

* A subscription that is made while there is an authority is called.
* If the authority's chain changes, all live subscriptions are called, and if the addresses change while
  there is an authority, all live ones of servers; if rotation is disabled, those that were handed a
  bundle are left out. -/
def Calls (g : Gateway) (event : Event) (n : Nat) : Prop :=
  let m := g.subscriptions
  match event with
  | .subscribe _ _ _ => keyDrawn tk g = true ∧ g.authority.isReady = true ∧ n = m.next
  | .generate _ _ | .install _ _ _ =>
    (step tk g event).authority.chain ≠ g.authority.chain ∧ (∃ key, m.live.get? key = some n) ∧
      ¬m.Kept n
  | .recordAddresses _ source addresses =>
    g.authority.isReady = true ∧
      (m.reachability.record source addresses).1.all ≠ m.reachability.all ∧
      (∃ key, m.live.get? key = some n ∧ key.kind = .server) ∧ ¬m.Kept n
  | .unsubscribe _ | .configure _ | .elsewhere _ => False

/-- The event ends the subscription of a name: it is given up, or another one takes its place. -/
def Ends (g : Gateway) (event : Event) (key : SubscriptionKey) : Prop :=
  match event with
  | .subscribe _ key' _ => keyDrawn tk g = true ∧ key' = key
  | .unsubscribe key' => key' = key
  | _ => False

/-- The event makes the subscription of number `n`, for a name and a recipient. -/
def Makes (g : Gateway) (event : Event) (n : Nat) (key : SubscriptionKey)
    (recipient : Recipient) : Prop :=
  keyDrawn tk g = true ∧ n = g.subscriptions.next ∧ ∃ now, event = .subscribe now key recipient

/-- The subscriptions as an event arranges them, before it hands bundles over. -/
def arranged (g : Gateway) : Event → Subscriptions
  | .subscribe _ key recipient =>
    match (g.world.draw (tk.newKey g.subscriptions.settings.keyType)).2 with
    | .ok privateKey => g.subscriptions.join (.new key.service key.kind privateKey recipient)
    | .error _ => g.subscriptions
  | .unsubscribe key => (g.subscriptions.unsubscribe key).1
  | .recordAddresses _ source addresses =>
    { g.subscriptions with
      reachability := (g.subscriptions.reachability.record source addresses).1 }
  | .configure settings => g.subscriptions.configure settings
  | .generate _ _ | .install _ _ _ | .elsewhere _ => g.subscriptions

variable {tk} {g : Gateway} {event : Event} {events : List Event} {n : Nat}

/-! ### How events arrange subscriptions -/

theorem arranged_of_error {w : World} {f : Fault}
    (hdraw : g.world.draw (tk.newKey g.subscriptions.settings.keyType) = (w, .error f)) (now : Int)
    (key : SubscriptionKey) (recipient : Recipient) :
    keyDrawn tk g = false ∧ arranged tk g (.subscribe now key recipient) = g.subscriptions := by
  unfold keyDrawn arranged
  rw [hdraw]
  exact ⟨rfl, rfl⟩

theorem arranged_of_key {w : World} {privateKey : PrivateKey}
    (hdraw : g.world.draw (tk.newKey g.subscriptions.settings.keyType) = (w, .ok privateKey))
    (now : Int) (key : SubscriptionKey) (recipient : Recipient) :
    keyDrawn tk g = true ∧ arranged tk g (.subscribe now key recipient) =
      g.subscriptions.join (.new key.service key.kind privateKey recipient) := by
  unfold keyDrawn arranged
  rw [hdraw]
  exact ⟨rfl, rfl⟩

/-- Whoever subscribes joins, if there is a key. -/
theorem arranged_subscribe_cases (tk : Toolkit) (g : Gateway) (now : Int) (key : SubscriptionKey)
    (recipient : Recipient) :
    (keyDrawn tk g = false ∧ arranged tk g (.subscribe now key recipient) = g.subscriptions) ∨
      keyDrawn tk g = true ∧ ∃ s, s.name = key ∧ s.recipient = recipient ∧ s.expiry = none ∧
        arranged tk g (.subscribe now key recipient) = g.subscriptions.join s := by
  rcases hdraw : g.world.draw (tk.newKey g.subscriptions.settings.keyType) with ⟨w, f | privateKey⟩
  · exact .inl (arranged_of_error hdraw now key recipient)
  · obtain ⟨hdrawn, harranged⟩ := arranged_of_key hdraw now key recipient
    exact .inr ⟨hdrawn, _, rfl, rfl, rfl, harranged⟩

/-- An event leaves the registry in order. -/
theorem registered_arranged (hm : g.subscriptions.Registered) (event : Event) :
    (arranged tk g event).Registered := by
  cases event with
  | subscribe now key recipient =>
      rcases arranged_subscribe_cases tk g now key recipient with
        ⟨-, harranged⟩ | ⟨-, s, -, -, hexpiry, harranged⟩
      · exact harranged ▸ hm
      · exact harranged ▸ Subscriptions.registered_join hm hexpiry
  | unsubscribe key => exact Subscriptions.registered_unsubscribe hm key
  | recordAddresses now source addresses => exact hm.congr rfl rfl rfl rfl
  | configure settings => exact hm.congr rfl rfl rfl rfl
  | generate now keyType => exact hm
  | install now key chain => exact hm
  | elsewhere world => exact hm

/-- Only subscribing adds a subscription. -/
theorem mem_orders_arranged (hm : g.subscriptions.Registered) {s : Subscription}
    (hs : (n, s) ∈ (arranged tk g event).orders) :
    (n, s) ∈ g.subscriptions.orders ∨ Makes tk g event n s.name s.recipient := by
  cases event with
  | subscribe now key recipient =>
      rcases arranged_subscribe_cases tk g now key recipient with
        ⟨-, harranged⟩ | ⟨hdrawn, s', rfl, rfl, -, harranged⟩
      · exact .inl (harranged ▸ hs)
      · rcases (Subscriptions.mem_orders_join hm).1 (harranged ▸ hs) with ⟨hs, -⟩ | heq
        · exact .inl hs
        · obtain ⟨rfl, rfl⟩ := Prod.mk.inj heq
          exact .inr ⟨hdrawn, rfl, now, rfl⟩
  | unsubscribe key => exact .inl (Subscriptions.mem_orders_unsubscribe.1 hs).1
  | recordAddresses now source addresses => exact .inl hs
  | configure settings => exact .inl hs
  | generate now keyType => exact .inl hs
  | install now key chain => exact .inl hs
  | elsewhere world => exact .inl hs

/-- To arrange subscriptions hands nothing over; numbers only count upwards, and addresses and settings
change by their own events. -/
theorem frame_arranged (tk : Toolkit) (g : Gateway) (event : Event) :
    (arranged tk g event).delivered = g.subscriptions.delivered ∧
      g.subscriptions.next ≤ (arranged tk g event).next ∧
      (arranged tk g event).reachability = reported g.subscriptions.reachability event ∧
      (arranged tk g event).settings = configured g.subscriptions.settings event := by
  cases event with
  | subscribe now key recipient =>
      rcases arranged_subscribe_cases tk g now key recipient with
        ⟨-, harranged⟩ | ⟨-, s, -, -, -, harranged⟩
      · rw [harranged]
        exact ⟨rfl, Nat.le_refl _, rfl, rfl⟩
      · obtain ⟨hnext, hdelivered, hsettings, hreachability⟩ :=
          Subscriptions.frame_join g.subscriptions s
        rw [harranged]
        exact ⟨hdelivered, hnext ▸ Nat.le_succ _, hreachability, hsettings⟩
  | unsubscribe key =>
      obtain ⟨hnext, hdelivered, hsettings, hreachability⟩ :=
        Subscriptions.frame_unsubscribe g.subscriptions key
      exact ⟨hdelivered, hnext ▸ Nat.le_refl _, hreachability, hsettings⟩
  | recordAddresses now source addresses => exact ⟨rfl, Nat.le_refl _, rfl, rfl⟩
  | configure settings => exact ⟨rfl, Nat.le_refl _, rfl, rfl⟩
  | generate now keyType => exact ⟨rfl, Nat.le_refl _, rfl, rfl⟩
  | install now key chain => exact ⟨rfl, Nat.le_refl _, rfl, rfl⟩
  | elsewhere world => exact ⟨rfl, Nat.le_refl _, rfl, rfl⟩

/-! ### Whom one event calls -/

/-- An operation on the authority leaves the subscriptions alone unless it changes the chain. -/
theorem settle_cases (tk : Toolkit) (now : Int) (g : Gateway) (o : AuthorityOutcome) :
    (g.settle tk now o).1.authority = o.store ∧
      (o.changed = none ∧ (g.settle tk now o).1.subscriptions = g.subscriptions ∨
        o.changed ≠ none ∧ (g.settle tk now o).1.subscriptions =
          (g.subscriptions.reissue tk now o.store (fun _ => true) o.world).1) := by
  unfold Gateway.settle
  cases hchanged : o.changed with
  | none => exact ⟨rfl, .inl ⟨rfl, rfl⟩⟩
  | some chain => exact ⟨rfl, .inr ⟨nofun, rfl⟩⟩

/-- After an operation on the authority exactly the live subscriptions are called, if the chain
changed. -/
theorem settle_handed {now : Int} (hm : g.subscriptions.Registered) {o : AuthorityOutcome}
    (hchanged : o.changed ≠ none ↔ o.store.chain ≠ g.authority.chain)
    (hs : RotationSucceeds tk now g o) :
    ∃ called, Subscriptions.Handed tk (g.settle tk now o).1.authority g.subscriptions
        (g.settle tk now o).1.subscriptions called ∧
      (called.map (·.number)).Nodup ∧ ∀ n, n ∈ called.map (·.number) ↔
        (g.settle tk now o).1.authority.chain ≠ g.authority.chain ∧
          (∃ key, g.subscriptions.live.get? key = some n) ∧ ¬g.subscriptions.Kept n := by
  obtain ⟨hauthority, ⟨hnone, hsame⟩ | ⟨hsome, hreissue⟩⟩ := settle_cases tk now g o
  · rw [hauthority, hsame]
    refine ⟨[], .refl _, List.nodup_nil, fun n => iff_of_false List.not_mem_nil fun h => ?_⟩
    exact hchanged.2 h.1 hnone
  · obtain ⟨called, hhanded, hnodup, hnumbers⟩ :=
      Subscriptions.reissue_called hm (fun _ => true) (hs hsome)
    rw [hauthority, hreissue]
    refine ⟨called, hhanded, hnodup, fun n => ?_⟩
    rw [hnumbers, and_iff_right (hchanged.1 hsome)]
    simp only [and_true]

/-- Whoever subscribes is called if there is an authority. -/
theorem subscribe_called {now : Int} {key : SubscriptionKey} {recipient : Recipient}
    (hm : g.subscriptions.Registered) (hs : Succeeds tk g (.subscribe now key recipient)) :
    let event := Event.subscribe now key recipient
    ∃ called, Subscriptions.Handed tk g.authority (arranged tk g event)
        (step tk g event).subscriptions called ∧
      (called.map (·.number)).Nodup ∧ ∀ n, n ∈ called.map (·.number) ↔ Calls tk g event n := by
  intro event
  have hstep : (step tk g event).subscriptions =
      (g.subscriptions.subscribe tk now g.authority g.world key recipient).1 := rfl
  rcases hdraw : g.world.draw (tk.newKey g.subscriptions.settings.keyType) with ⟨w, f | privateKey⟩
  · obtain ⟨hkey, harranged⟩ := arranged_of_error hdraw now key recipient
    rw [hstep, harranged, Subscriptions.subscribe_of_error now g.authority recipient hdraw]
    refine ⟨[], .refl _, List.nodup_nil, fun n => iff_of_false List.not_mem_nil fun h => ?_⟩
    exact Bool.false_ne_true (hkey.symm.trans h.1)
  · obtain ⟨hkey, harranged⟩ := arranged_of_key hdraw now key recipient
    obtain ⟨called, hhanded, hnumbers⟩ := Subscriptions.subscribe_handed hm hdraw (hs hkey)
    rw [hstep, harranged]
    refine ⟨called, hhanded, ?_, fun n => ?_⟩
    · rw [hnumbers]
      split
      · exact List.nodup_singleton _
      · exact List.nodup_nil
    · show _ ↔ keyDrawn tk g = true ∧ g.authority.isReady = true ∧ n = g.subscriptions.next
      rw [hnumbers, and_iff_right hkey]
      split
      · next hready => rw [List.mem_singleton, and_iff_right hready]
      · next hready => exact iff_of_false List.not_mem_nil fun h => hready h.1

/-- Servers are called if the addresses change while there is an authority. -/
theorem recordAddresses_called {now : Int} {source : String} {addresses : List HostAddress}
    (hm : g.subscriptions.Registered)
    (hs : Succeeds tk g (.recordAddresses now source addresses)) :
    let event := Event.recordAddresses now source addresses
    ∃ called, Subscriptions.Handed tk g.authority (arranged tk g event)
        (step tk g event).subscriptions called ∧
      (called.map (·.number)).Nodup ∧ ∀ n, n ∈ called.map (·.number) ↔ Calls tk g event n := by
  intro event
  have hstep : (step tk g event).subscriptions =
      (g.subscriptions.recordAddresses tk now g.authority g.world source addresses).1 := rfl
  have hempty := g.subscriptions.reachability.isEmpty_record_iff source addresses
  rw [hstep]
  unfold Subscriptions.recordAddresses
  simp only
  split
  · next hskip =>
      refine ⟨[], .refl _, List.nodup_nil, fun n => iff_of_false List.not_mem_nil fun h => ?_⟩
      obtain ⟨hready, hchanged, -⟩ := h
      rw [Bool.or_eq_true, hempty, hready] at hskip
      exact hskip.elim hchanged (fun h => Bool.false_ne_true h)
  · next hgo =>
      rw [Bool.not_eq_true, Bool.or_eq_false_iff, Bool.not_eq_false', ← Bool.not_eq_true,
        hempty] at hgo
      obtain ⟨called, hhanded, hnodup, hnumbers⟩ := Subscriptions.reissue_called
        (registered_arranged hm event) (fun kind => kind = .server) (hs hgo.2 hgo.1)
      refine ⟨called, hhanded, hnodup, fun n => ?_⟩
      show _ ↔ g.authority.isReady = true ∧ _
      rw [hnumbers, and_iff_right hgo.2, and_iff_right hgo.1]
      simp only [decide_eq_true_eq]
      rfl

/-- **One event.**  If no issuance of an event fails, it calls exactly the subscriptions that `Calls`
names, each of them once. -/
theorem step_handed (hm : g.subscriptions.Registered) (hs : Succeeds tk g event) :
    ∃ called, Subscriptions.Handed tk (step tk g event).authority (arranged tk g event)
        (step tk g event).subscriptions called ∧
      (called.map (·.number)).Nodup ∧ ∀ n, n ∈ called.map (·.number) ↔ Calls tk g event n := by
  have hnobody : ∀ n, n ∈ ([] : List Delivery).map (·.number) ↔ False :=
    fun n => iff_of_false List.not_mem_nil not_false
  cases event with
  | subscribe now key recipient => exact subscribe_called hm hs
  | recordAddresses now source addresses => exact recordAddresses_called hm hs
  | generate now keyType =>
      exact settle_handed hm (AuthorityStore.changed_update_iff tk now _ _ keyType) hs
  | install now key chain =>
      exact settle_handed hm (AuthorityStore.changed_install_iff tk _ _ key chain) hs
  | unsubscribe key => exact ⟨[], .refl _, List.nodup_nil, hnobody⟩
  | configure settings => exact ⟨[], .refl _, List.nodup_nil, hnobody⟩
  | elsewhere world => exact ⟨[], .refl _, List.nodup_nil, hnobody⟩

theorem delivered_step {authority : AuthorityStore} {called : List Delivery}
    (h : Subscriptions.Handed tk authority (arranged tk g event) (step tk g event).subscriptions
      called) :
    (step tk g event).subscriptions.delivered = g.subscriptions.delivered ++ called := by
  rw [h.delivered, (frame_arranged tk g event).1]

theorem registered_step (hm : g.subscriptions.Registered) (hs : Succeeds tk g event) :
    (step tk g event).subscriptions.Registered := by
  obtain ⟨called, hhanded, -⟩ := step_handed hm hs
  exact hhanded.registered (registered_arranged hm event)

end CertificateRun

end DeviceAccess
