import DeviceAccess.Proofs.Interleaving.Rotation

/-!
# Which addresses certificates are issued for

However calls are interleaved, once none is on its way every live server was issued a certificate for
the gateway's addresses at a time since which they have not changed (`Interleaving.addressed_run`).

A call reads the addresses before it issues a certificate for them.  If the addresses change in between,
a certificate for the old addresses may be issued after one for the new ones, and then it is the last one
(`Interleaving.addressed_overtaken`).
-/

namespace DeviceAccess

namespace Interleaving

variable {tk : Toolkit} {now : Int} {s : Shared} {c : Call} {n : Nat} {sub : Subscription}
  {σ : State} {event : Event} {events : List Event} {addresses : List HostAddress}

/-- The number of the subscription that an event issues a certificate to, with the addresses that the
certificate is for. -/
def State.issues? (σ : State) : Event → Option (Nat × List HostAddress)
  | .advance _ i => σ.calls[i]?.bind Call.issues?
  | .call _ | .elsewhere _ => none

theorem State.issues?_advance {i : Nat} (hc : σ.calls[i]? = some c) (now : Int) :
    σ.issues? (.advance now i) = c.issues? := by
  unfold issues?
  simp only [hc]
  rfl

theorem run_append (tk : Toolkit) (σ : State) (events more : List Event) :
    run tk σ (events ++ more) = run tk (run tk σ events) more :=
  List.foldl_append

theorem run_middle (tk : Toolkit) (σ : State) (before : List Event) (event : Event)
    (after : List Event) :
    run tk σ (before ++ event :: after) = run tk (step tk (run tk σ before) event) after :=
  run_append tk σ before (event :: after)

theorem run_concat (tk : Toolkit) (σ : State) (events : List Event) (event : Event) :
    run tk σ (events ++ [event]) = step tk (run tk σ events) event :=
  run_append tk σ events [event]

/-- In a run the subscription was issued a certificate for the addresses at the end of the run, and they
have not changed since. -/
def AddressedIn (tk : Toolkit) (σ : State) (events : List Event) (n : Nat) (sub : Subscription) : Prop :=
  ∃ before event after, events = before ++ event :: after ∧
    (n, sub) ∈ (run tk σ before).shared.subscriptions.orders ∧
    (run tk σ before).issues? event = some (n, (run tk σ events).shared.addresses) ∧
    ∀ mid rest, after = mid ++ rest →
      (run tk σ (before ++ event :: mid)).shared.addresses = (run tk σ events).shared.addresses

theorem AddressedIn.concat (h : AddressedIn tk σ events n sub)
    (hsame : (run tk σ (events ++ [event])).shared.addresses = (run tk σ events).shared.addresses) :
    AddressedIn tk σ (events ++ [event]) n sub := by
  obtain ⟨before, issuance, after, rfl, hsub, hissues, hkept⟩ := h
  refine ⟨before, issuance, after ++ [event], by simp, hsub, hsame ▸ hissues, fun mid rest heq => ?_⟩
  rcases List.eq_nil_or_concat rest with rfl | ⟨rest, last, rfl⟩
  · rw [List.append_nil] at heq
    rw [← heq]
    congr 2
    simp
  · rw [List.concat_eq_append, ← List.append_assoc] at heq
    obtain ⟨rfl, -⟩ := List.append_inj' heq rfl
    exact (hkept mid rest rfl).trans hsame.symm

/-- Whoever is issued a certificate for the addresses as they are has one from then on. -/
theorem AddressedIn.of_issues (hsub : (n, sub) ∈ (run tk σ events).shared.subscriptions.orders)
    (hissues : (run tk σ events).issues? event = some (n, (run tk σ events).shared.addresses))
    (hsame : (run tk σ (events ++ [event])).shared.addresses = (run tk σ events).shared.addresses) :
    AddressedIn tk σ (events ++ [event]) n sub := by
  refine ⟨events, event, [], rfl, hsub, hsame ▸ hissues, fun mid rest heq => ?_⟩
  obtain ⟨rfl, -⟩ := List.append_eq_nil_iff.1 heq.symm
  rfl

/-- If there is an authority, every server was issued a certificate for the addresses as they are, or is
owed one. -/
def AllAddressed (tk : Toolkit) (σ : State) (events : List Event) : Prop :=
  (run tk σ events).shared.gateway.authority.isReady = true →
    (run tk σ events).Awaited (fun addresses => addresses = (run tk σ events).shared.addresses)
      (fun kind => kind = .server) (AddressedIn tk σ events)

/-- While the authority and the addresses stay, whom a call issues a certificate to, for the addresses
as they are, has one for them. -/
theorem AllAddressed.concat (hσ : σ.InOrder) (h : AllAddressed tk σ events) :
    AllAddressed tk σ (events ++ [event]) := by
  have hτ := hσ.run tk events
  have hrun := run_concat tk σ events event
  have hkept : (step tk (run tk σ events) event).shared.addresses = (run tk σ events).shared.addresses →
      ∀ n sub, AddressedIn tk σ events n sub → AddressedIn tk σ (events ++ [event]) n sub :=
    fun hsame n sub hn => hn.concat (hrun ▸ hsame)
  have hissued : (step tk (run tk σ events) event).shared.addresses =
        (run tk σ events).shared.addresses →
      ∀ n sub, (n, sub) ∈ (run tk σ events).shared.subscriptions.orders →
        (run tk σ events).issues? event = some (n, (run tk σ events).shared.addresses) →
        AddressedIn tk σ (events ++ [event]) n sub :=
    fun hsame n sub hsub hissues => .of_issues hsub hissues (hrun ▸ hsame)
  unfold AllAddressed at h ⊢
  rw [hrun]
  -- From here on only the state before the event matters.
  generalize run tk σ events = τ at h hτ hkept hissued ⊢
  rcases step_cases tk τ event with
    ⟨now, i, c, rfl, hc, hstep⟩ | ⟨hauthority, hsubscriptions, hcalls⟩
  · have hstepped := mem_set_of_getElem? hc (τ.shared.step tk now c).2
    rw [State.issues?_advance hc] at hissued
    rw [hstep] at hkept hissued ⊢
    intro hready
    have hstays : (τ.shared.step tk now c).1.chain = τ.shared.chain →
        (τ.shared.step tk now c).1.addresses = τ.shared.addresses →
        (State.mk (τ.shared.step tk now c).1 (τ.calls.set i (τ.shared.step tk now c).2)).Awaited
          (fun addresses => addresses = (τ.shared.step tk now c).1.addresses)
          (fun kind => kind = .server) (AddressedIn tk σ (events ++ [.advance now i])) := by
      intro hchain hsame
      have hbefore := Shared.isReady_of_chain_eq hchain hready
      rw [hsame]
      exact (h hbefore).advance hτ hc hbefore rfl (fun n sub _ _ => hkept hsame n sub)
        fun n sub addresses hsub _ hissues heq => hissued hsame n sub hsub (heq ▸ hissues)
    rcases Shared.step_cases tk now τ.shared c with
      ⟨n, addresses, -, heq⟩ | ⟨-, -, -, hlisting | ⟨hchain, hreported | hsame⟩⟩
    · have hframe := Shared.frame_issue tk now τ.shared n addresses
      exact hstays (heq ▸ hframe.1) (heq ▸ hframe.2)
    · refine State.awaited_of_owes hstepped fun kind n _ => ?_
      rw [hlisting]
      trivial
    · refine State.awaited_of_owes hstepped fun kind n hkind => ?_
      rw [hreported]
      exact hkind
    · exact hstays hchain hsame
  · have hsame : (step tk τ event).shared.addresses = τ.shared.addresses := by
      unfold Shared.addresses
      rw [hsubscriptions]
    rw [hauthority, hsame]
    exact fun hready => (h hready).mono (congrArg Subscriptions.orders hsubscriptions) hcalls
      (hkept hsame)

theorem allAddressed_run (hσ : σ.InOrder) (h : AllAddressed tk σ []) (events : List Event) :
    AllAddressed tk σ events := by
  induction events using List.reverseRecOn with
  | nil => exact h
  | append_singleton events event ih => exact ih.concat hσ

/-! ### From the issuance to the end -/

/-- The bundle of an issuance that succeeds. -/
theorem handed_of_issues (hσ : σ.InOrder) (hs : Succeeds tk σ event)
    (hsub : (n, sub) ∈ σ.shared.subscriptions.orders) (h : σ.issues? event = some (n, addresses)) :
    ∃ ca b, sub.Certified tk ca addresses b ∧
      (step tk σ event).shared.subscriptions.delivered =
        σ.shared.subscriptions.delivered ++ [⟨n, sub.recipient, b⟩] := by
  cases event with
  | call request => cases h
  | elsewhere world => cases h
  | advance now i =>
      obtain ⟨c, hc, hissues⟩ := Option.bind_eq_some_iff.1 h
      rw [step_advance tk hc]
      rcases Shared.last?_step hσ.shared (hs.of_advance hc) hsub with
        ⟨-, hnone⟩ | ⟨addresses', ca, b, hissues', -, hcertified, hdelivered⟩
      · exact absurd hissues (hnone addresses)
      · obtain rfl := congrArg Prod.snd (Option.some.inj (hissues.symm.trans hissues'))
        exact ⟨ca, b, hcertified, hdelivered⟩

/-- Other events leave the last bundle of the subscription alone. -/
theorem last?_of_not_issues (hσ : σ.InOrder) (hs : Succeeds tk σ event)
    (hsub : (n, sub) ∈ σ.shared.subscriptions.orders)
    (h : ∀ addresses, σ.issues? event ≠ some (n, addresses)) :
    (step tk σ event).shared.subscriptions.last? n = σ.shared.subscriptions.last? n := by
  rcases step_cases tk σ event with ⟨now, i, c, rfl, hc, hstep⟩ | ⟨-, hsubscriptions, -⟩
  · rw [hstep]
    rcases Shared.last?_step hσ.shared (hs.of_advance hc) hsub with
      ⟨hlast, -⟩ | ⟨addresses, ca, b, hissues, -⟩
    · exact hlast
    · exact absurd ((State.issues?_advance hc now).trans hissues) (h addresses)
  · rw [hsubscriptions]

/-- Numbers of subscriptions only count upwards. -/
theorem next_le_step (hσ : σ.InOrder) (event : Event) :
    σ.shared.subscriptions.next ≤ (step tk σ event).shared.subscriptions.next := by
  rcases step_cases tk σ event with ⟨now, i, c, rfl, hc, hstep⟩ | ⟨-, hsubscriptions, -⟩
  · rw [hstep]
    rcases Shared.step_cases tk now σ.shared c with ⟨n, addresses, -, heq⟩ | ⟨-, -, hnext, -⟩
    · have hsame := Shared.sameRegistry_issue hσ.shared tk now n addresses
      exact Nat.le_of_eq (heq ▸ hsame.next.symm)
    · exact hnext
  · exact Nat.le_of_eq (congrArg Subscriptions.next hsubscriptions.symm)

/-- Whoever is kept current after an event and was known before was kept current before. -/
theorem mem_orders_of_step (hσ : σ.InOrder) (hn : n < σ.shared.subscriptions.next)
    (hsub : (n, sub) ∈ (step tk σ event).shared.subscriptions.orders) :
    (n, sub) ∈ σ.shared.subscriptions.orders := by
  rcases step_cases tk σ event with ⟨now, i, c, rfl, hc, hstep⟩ | ⟨-, hsubscriptions, -⟩
  · rw [hstep] at hsub
    rcases Shared.mem_orders_step hσ.shared hsub with hold | ⟨heq, -⟩
    · exact hold
    · exact absurd (heq ▸ hn) (Nat.lt_irrefl _)
  · exact hsubscriptions ▸ hsub

theorem mem_orders_of_run (hσ : σ.InOrder) (hn : n < σ.shared.subscriptions.next)
    (hsub : (n, sub) ∈ (run tk σ events).shared.subscriptions.orders) :
    (n, sub) ∈ σ.shared.subscriptions.orders := by
  induction events generalizing σ with
  | nil => exact hsub
  | cons event events ih =>
      have hnext : n < (step tk σ event).shared.subscriptions.next :=
        Nat.lt_of_lt_of_le hn (next_le_step hσ event)
      exact mem_orders_of_step hσ hn (ih (hσ.step tk event) hnext hsub)

/-- If an event issues a certificate to the subscription of a number, it is for the gateway's addresses at
that time. -/
def State.isTimely (n : Nat) (σ : State) (event : Event) : Bool :=
  (σ.issues? event).all fun p => p.1 ≠ n ∨ p.2 = σ.shared.addresses

/-- Every certificate that a run issues to a subscription is for the gateway's addresses at that time. -/
def Timely (tk : Toolkit) (n : Nat) (σ : State) (events : List Event) : Prop :=
  Along (step tk) (fun σ event => σ.isTimely n event = true) σ events

instance decidableTimely (tk : Toolkit) (n : Nat) (σ : State) (events : List Event) :
    Decidable (Timely tk n σ events) :=
  inferInstanceAs (Decidable (Along _ _ σ events))

/-- While the addresses stay, whoever has a certificate for them keeps one if no certificate is issued
to it for addresses read before. -/
theorem certified_run (hσ : σ.InOrder) (hs : NoFailures tk σ events)
    (hn : n < σ.shared.subscriptions.next)
    (hsub : (n, sub) ∈ (run tk σ events).shared.subscriptions.orders)
    (hkept : ∀ mid rest, events = mid ++ rest → (run tk σ mid).shared.addresses = addresses)
    (htimely : Timely tk n σ events)
    (h : ∃ ca b, σ.shared.subscriptions.last? n = some b ∧ sub.Certified tk ca addresses b) :
    ∃ ca b, (run tk σ events).shared.subscriptions.last? n = some b ∧
      sub.Certified tk ca addresses b := by
  induction events generalizing σ with
  | nil => exact h
  | cons event events ih =>
      have hnow : σ.shared.addresses = addresses := hkept [] _ rfl
      have hstepped : n < (step tk σ event).shared.subscriptions.next :=
        Nat.lt_of_lt_of_le hn (next_le_step hσ event)
      have hbefore : (n, sub) ∈ σ.shared.subscriptions.orders := mem_orders_of_run hσ hn hsub
      refine ih (hσ.step tk event) hs.2 hstepped hsub
        (fun mid rest heq => hkept (event :: mid) rest (congrArg (event :: ·) heq)) htimely.2 ?_
      by_cases hissues : ∃ read, σ.issues? event = some (n, read)
      · obtain ⟨read, hissues⟩ := hissues
        have hread : read = addresses := by
          have hfresh : σ.isTimely n event = true := htimely.1
          unfold State.isTimely at hfresh
          rw [hissues] at hfresh
          simpa [hnow] using hfresh
        subst hread
        obtain ⟨ca, b, hcertified, hdelivered⟩ := handed_of_issues hσ hs.1 hbefore hissues
        refine ⟨ca, b, ?_, hcertified⟩
        rw [Subscriptions.last?_of_append hdelivered, if_pos rfl]
      · rw [last?_of_not_issues hσ hs.1 hbefore (not_exists.1 hissues)]
        exact h

/-- **Servers are issued certificates for the addresses as they are.**  Take any interleaving of calls of
a new gateway in which no issuance fails and rotation is not disabled.  Once no call is on its way and
there is an authority, every live server was handed a bundle whose certificate was issued for the
gateway's addresses, at a time since which they have not changed: for each of them and `localhost`, once,
and not for the empty name.  Its last bundle is for these addresses too, unless a certificate was issued
to it after that for addresses that had been read before they changed. -/
theorem addressed_run (tk : Toolkit) (world : World) (workDir : Path) (settings : LeafSettings)
    (hrotating : settings.rotationDisabled = false) (events : List Event)
    (hs : NoFailures tk (.start (.new world workDir settings)) events) :
    let start := State.start (.new world workDir settings)
    let σ := run tk start events
    let m := σ.shared.subscriptions
    let addresses := σ.shared.addresses
    let names := Subscription.namesFor .server addresses
    names.Nodup ∧ (∀ x, x ∈ names ↔ x ≠ "" ∧ (x ∈ addresses ∨ x = "localhost")) ∧
      (σ.Quiet → σ.shared.gateway.authority.isReady = true →
        ∀ key n, key.kind = .server → m.live.get? key = some n →
          ∃ before event after sub ca b, events = before ++ event :: after ∧
            (n, sub) ∈ m.orders ∧ sub.name = key ∧ sub.Certified tk ca addresses b ∧
            (step tk (run tk start before) event).shared.subscriptions.delivered =
              (run tk start before).shared.subscriptions.delivered ++ [⟨n, sub.recipient, b⟩] ∧
            (∀ mid rest, after = mid ++ rest →
              (run tk start (before ++ event :: mid)).shared.addresses = addresses) ∧
            (Timely tk n (step tk (run tk start before) event) after →
              ∃ ca b, m.last? n = some b ∧ sub.Certified tk ca addresses b)) := by
  intro start σ m addresses names
  refine ⟨Subscription.nodup_namesFor _ _, fun x => ?_, fun hquiet hready key n hkind hlive => ?_⟩
  · rw [Subscription.mem_namesFor_iff]
    exact and_iff_right rfl
  have hstart : start.InOrder :=
    State.inOrder_start (Subscriptions.registered_empty settings) hrotating
  have hall : AllAddressed tk start events := allAddressed_run hstart (fun h => nomatch h) events
  obtain ⟨sub, hsub, hname⟩ := (hstart.run tk events).shared.live key n hlive
  have hserver : sub.kind = .server := (congrArg SubscriptionKey.kind hname).trans hkind
  obtain ⟨before, event, after, hevents, hbefore, hissues, hkept⟩ :=
    (hall hready).served_of_quiet hquiet hsub hserver
  have hσ : (run tk start before).InOrder := hstart.run tk before
  rw [hevents] at hs
  obtain ⟨-, hissuance, hafter⟩ := along_append.1 hs
  obtain ⟨ca, b, hcertified, hdelivered⟩ := handed_of_issues hσ hissuance hbefore hissues
  refine ⟨before, event, after, sub, ca, b, hevents, hsub, hname, hcertified, hdelivered, hkept,
    fun htimely => ?_⟩
  -- The bundle is the last one as it is handed over; the rest of the run keeps it or hands over others
  -- for the same addresses.
  have hend : run tk (step tk (run tk start before) event) after = σ := by
    rw [← run_middle, ← hevents]
  have hknown : n < (step tk (run tk start before) event).shared.subscriptions.next :=
    Nat.lt_of_lt_of_le (hσ.shared.lt_next_of_mem_orders hbefore) (next_le_step hσ event)
  have hcertifiedEnd := certified_run (hσ.step tk event) hafter hknown (hend ▸ hsub)
    (fun mid rest heq => run_middle tk start before event mid ▸ hkept mid rest heq) htimely
    ⟨ca, b, by rw [Subscriptions.last?_of_append hdelivered, if_pos rfl], hcertified⟩
  rw [hend] at hcertifiedEnd
  exact hcertifiedEnd

/-! ### Servers whose addresses change -/

/-- Certificates that read as their names. -/
def namingToolkit : Toolkit :=
  { CertificateRun.plainToolkit with
    issue := fun request _ _ _ _ => pure (.ok (",".intercalate request.names)) }

/-- A gateway that nobody has called. -/
def vacant : State := .start (.new CertificateRun.emptyWorld ⟨"/work"⟩ .standard)

/-- An authority is generated. -/
def generated : List Event := .call (.generate .ecdsaP256) :: steps [0, 0, 0]

/-- An authority is generated, and a server subscribes. -/
def served : List Event :=
  generated ++ .call (.subscribe CertificateRun.broker (.caller "broker")) :: steps [1, 1, 1, 1, 1]

/-- A server subscribes while an address is reported: both calls issue a certificate to it. -/
def reportedMeanwhile : List Event :=
  generated ++ [.call (.report "configuration" ["10.0.0.1"]),
    .call (.subscribe CertificateRun.broker (.caller "broker"))] ++
    steps [1, 2, 2, 2, 1, 1, 1, 1, 1, 2, 2, 1]

/-- Both certificates are for the address, so the last one is. -/
theorem addressed_run_reportedMeanwhile :
    let σ := run namingToolkit vacant reportedMeanwhile
    NoFailures namingToolkit vacant reportedMeanwhile ∧ σ.Quiet ∧
      σ.shared.subscriptions.live.get? CertificateRun.broker = some 0 ∧
      ∃ b, σ.shared.subscriptions.last? 0 = some b ∧ b.certificate = "10.0.0.1,localhost" := by
  intro σ
  have hnone : NoFailures namingToolkit vacant reportedMeanwhile := by decide +kernel
  have hquiet : σ.Quiet := by decide +kernel
  have hlive : σ.shared.subscriptions.live.get? CertificateRun.broker = some 0 ∧
      σ.shared.gateway.authority.isReady = true ∧ σ.shared.addresses = ["10.0.0.1"] := by
    decide +kernel
  have htimely : Timely namingToolkit 0 vacant reportedMeanwhile := by decide +kernel
  obtain ⟨-, -, hserver⟩ := addressed_run namingToolkit CertificateRun.emptyWorld ⟨"/work"⟩ .standard rfl
    reportedMeanwhile hnone
  obtain ⟨before, event, after, sub, -, -, hevents, -, hname, -, -, -, hlast⟩ :=
    hserver hquiet hlive.2.1 CertificateRun.broker 0 rfl hlive.1
  rw [hevents] at htimely
  obtain ⟨ca, b, hb, -, -, settings, now, entropy, hcertificate⟩ := hlast (along_append.1 htimely).2.2
  have hkind : sub.kind = .server := congrArg SubscriptionKey.kind hname
  refine ⟨hnone, hquiet, hlive.1, b, hb, ?_⟩
  have hnames : (sub.request settings σ.shared.addresses).names = ["10.0.0.1", "localhost"] := by
    show Subscription.namesFor sub.kind σ.shared.addresses = _
    rw [hkind, hlive.2.2]
    decide
  have hissued : b.certificate = ",".intercalate (sub.request settings σ.shared.addresses).names :=
    (Except.ok.inj hcertificate).symm
  rw [hissued, hnames]
  decide

/-- A server is to get a certificate for the address that was reported.  Before that is issued, another
address is reported, and the server gets a certificate for both. -/
def overtaken : List Event :=
  served ++ .call (.report "configuration" ["10.0.0.1"]) :: steps [2, 2, 2] ++
    .call (.report "detection" ["10.0.0.2"]) :: steps [3, 3, 3, 3, 3, 3, 3] ++ steps [2, 2, 2, 2]

/-- The last certificate need not be for the gateway's addresses: one for the addresses that were read
before may be issued after it. -/
theorem addressed_overtaken :
    let σ := run namingToolkit vacant overtaken
    NoFailures namingToolkit vacant overtaken ∧ σ.Quiet ∧
      σ.shared.gateway.authority.isReady = true ∧
      σ.shared.subscriptions.live.get? CertificateRun.broker = some 0 ∧
      σ.shared.addresses = ["10.0.0.1", "10.0.0.2"] ∧
      (σ.shared.subscriptions.last? 0).map (·.certificate) = some "10.0.0.1,localhost" := by
  decide +kernel

end Interleaving

end DeviceAccess
