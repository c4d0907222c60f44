import DeviceAccess.Proofs.Gateway.CertificateRuns
import DeviceAccess.Proofs.Interleaving.Owed

/-!
# No change of the authority is lost

However calls are interleaved, once none is on its way every live subscription has a certificate of the
authority in force (`Interleaving.rotated_run`).  Between the replacement of the authority and the last
certificate of its round everybody whose last bundle carries an older chain is owed a new one: by the
round, or, if it came after the list was taken, by the call that brought it.
-/

namespace DeviceAccess

namespace Interleaving

variable {tk : Toolkit} {now : Int} {s : Shared} {c : Call} {n : Nat} {sub : Subscription}

/-- The last bundle of a subscription carries the chain in force, and its certificate was issued by an
authority with this chain. -/
def Shared.Rotated (tk : Toolkit) (s : Shared) (n : Nat) (sub : Subscription) : Prop :=
  ∃ b ca addresses, s.subscriptions.last? n = some b ∧ ca.chain = s.chain ∧
    sub.Certified tk ca addresses b

/-- While the chain stays, whoever has a certificate of it keeps one, and whoever is issued one gets
one. -/
theorem Shared.rotated_step (hs : s.InOrder) (hok : s.succeeds tk now c = true)
    (hchain : (s.step tk now c).1.chain = s.chain) (hsub : (n, sub) ∈ s.subscriptions.orders)
    (h : s.Rotated tk n sub ∨ ∃ addresses, c.issues? = some (n, addresses)) :
    (s.step tk now c).1.Rotated tk n sub := by
  unfold Rotated
  rw [hchain]
  rcases last?_step hs hok hsub with ⟨hlast, hissues⟩ |
    ⟨addresses, ca, b, -, hca, hcertified, hdelivered⟩
  · rcases h with h | ⟨addresses, hn⟩
    · rw [hlast]
      exact h
    · exact absurd hn (hissues addresses)
  · refine ⟨b, ca, addresses, ?_, (AuthorityStore.chain_of_material hca).symm, hcertified⟩
    rw [Subscriptions.last?_of_append hdelivered, if_pos rfl]

/-- If there is an authority, everybody has a certificate of it or is owed one. -/
def State.Rotating (tk : Toolkit) (σ : State) : Prop :=
  σ.shared.gateway.authority.isReady = true →
    σ.Awaited (fun _ => True) (fun _ => True) (σ.shared.Rotated tk)

variable {σ : State} {event : Event} {events : List Event}

theorem State.Rotating.step (hσ : σ.InOrder) (hs : Succeeds tk σ event) (h : σ.Rotating tk) :
    (step tk σ event).Rotating tk := by
  rcases step_cases tk σ event with ⟨now, i, c, rfl, hc, hstep⟩ | ⟨hauthority, hsubscriptions, hcalls⟩
  · have hok := hs.of_advance hc
    have hstepped := mem_set_of_getElem? hc (σ.shared.step tk now c).2
    rw [hstep]
    intro hready
    have hkept : (σ.shared.step tk now c).1.chain = σ.shared.chain →
        (State.mk (σ.shared.step tk now c).1
          (σ.calls.set i (σ.shared.step tk now c).2)).Awaited (fun _ => True) (fun _ => True)
          ((σ.shared.step tk now c).1.Rotated tk) := by
      intro hchain
      have hbefore := Shared.isReady_of_chain_eq hchain hready
      exact (h hbefore).advance hσ hc hbefore trivial
        (fun n sub hsub _ hn => Shared.rotated_step hσ.shared hok hchain hsub (.inl hn))
        fun n sub addresses hsub _ hissues _ =>
          Shared.rotated_step hσ.shared hok hchain hsub (.inr ⟨addresses, hissues⟩)
    rcases Shared.step_cases tk now σ.shared c with
      ⟨n, addresses, -, heq⟩ | ⟨-, -, -, hlisting | ⟨hchain, -⟩⟩
    · exact hkept (heq ▸ (Shared.frame_issue tk now σ.shared n addresses).1)
    · refine State.awaited_of_owes hstepped fun kind n _ => ?_
      rw [hlisting]
      trivial
    · exact hkept hchain
  · unfold State.Rotating Shared.Rotated Shared.chain
    rw [hauthority, hsubscriptions]
    exact fun hready => (h hready).mono (congrArg Subscriptions.orders hsubscriptions) hcalls
      fun n sub => id

/-- **No change of the authority is lost.**  Take any interleaving of calls of a new gateway in which no
issuance fails and rotation is not disabled.  Once no call is on its way and there is an authority, every
live subscription has been handed a bundle, and its last one carries the chain in force and a certificate
that was issued with that chain's signing certificate. -/
theorem rotated_run (tk : Toolkit) (world : World) (workDir : Path) (settings : LeafSettings)
    (hrotating : settings.rotationDisabled = false) (events : List Event)
    (hs : NoFailures tk (.start (.new world workDir settings)) events) :
    let σ := run tk (.start (.new world workDir settings)) events
    let m := σ.shared.subscriptions
    σ.Quiet → σ.shared.gateway.authority.isReady = true → ∀ key n, m.live.get? key = some n →
      ∃ sub b ca addresses, (n, sub) ∈ m.orders ∧ sub.name = key ∧ m.last? n = some b ∧
        b.authorities = σ.shared.chain ∧ ca.chain = σ.shared.chain ∧
        sub.Certified tk ca addresses b := by
  intro σ m hquiet hready key n hlive
  have hstart : (State.start (.new world workDir settings)).InOrder :=
    State.inOrder_start (Subscriptions.registered_empty settings) hrotating
  obtain ⟨hσ, hrotated⟩ : σ.InOrder ∧ σ.Rotating tk :=
    hs.foldl (fun σ => σ.InOrder ∧ σ.Rotating tk)
      (fun _ event h hsucceeds => ⟨h.1.step tk event, h.2.step h.1 hsucceeds⟩)
      ⟨hstart, fun h => nomatch h⟩
  obtain ⟨sub, hsub, hname⟩ := hσ.shared.live key n hlive
  obtain ⟨b, ca, addresses, hlast, hchain, hcertified⟩ :=
    (hrotated hready).served_of_quiet hquiet hsub trivial
  exact ⟨sub, b, ca, addresses, hsub, hname, hlast, hcertified.1.trans hchain, hchain, hcertified⟩

/-! ### A server that subscribes while the authority is replaced -/

/-- Steps of calls, by their numbers. -/
def steps (calls : List Nat) : List Event := calls.map (.advance 0)

/-- A server asks for an authority when one was generated but not yet announced, so it gets its first
certificate twice.  Another authority is imported as soon as the round of the first one is over. -/
def racingBroker : List Event :=
  [.call (.subscribe CertificateRun.broker (.caller "broker")), .call (.generate .ecdsaP256)] ++
    steps [0, 1, 0, 0] ++ [.call (.install "key" ["imported"])] ++
    steps [2, 1, 1, 1, 0, 1, 0, 1, 2, 2, 2, 2, 2, 2]

/-- The server ends up with a certificate of the imported authority. -/
theorem rotated_run_racingBroker :
    let σ := run CertificateRun.plainToolkit
      (.start (.new CertificateRun.emptyWorld ⟨"/work"⟩ .standard)) racingBroker
    NoFailures CertificateRun.plainToolkit
        (.start (.new CertificateRun.emptyWorld ⟨"/work"⟩ .standard)) racingBroker ∧
      σ.Quiet ∧ σ.shared.subscriptions.live.get? CertificateRun.broker = some 0 ∧
      ∃ b, σ.shared.subscriptions.last? 0 = some b ∧ b.authorities = ["imported"] := by
  intro σ
  have hnone : NoFailures CertificateRun.plainToolkit
      (.start (.new CertificateRun.emptyWorld ⟨"/work"⟩ .standard)) racingBroker := by
    decide +kernel
  have hquiet : σ.Quiet := by
    decide +kernel
  have hlive : σ.shared.subscriptions.live.get? CertificateRun.broker = some 0 ∧
      σ.shared.gateway.authority.isReady = true ∧ σ.shared.chain = ["imported"] := by
    decide +kernel
  obtain ⟨sub, b, ca, addresses, -, -, hlast, hauthorities, -⟩ := rotated_run
    CertificateRun.plainToolkit CertificateRun.emptyWorld ⟨"/work"⟩ .standard rfl racingBroker hnone
    hquiet hlive.2.1 CertificateRun.broker 0 hlive.1
  exact ⟨hnone, hquiet, hlive.1, b, hlast, hauthorities.trans hlive.2.2⟩

end Interleaving

end DeviceAccess
