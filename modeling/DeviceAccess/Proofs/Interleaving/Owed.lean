import DeviceAccess.Proofs.Interleaving.Order

/-!
# What calls still owe

Somebody who has not got the certificate that is wanted now is on the list of a call that is on its way:
a call that is going to issue one to it, for addresses that are still to be read or that satisfy `ok`
(`Interleaving.Call.Owes`).  `Interleaving.State.Awaited` says this of all subscriptions of some kinds
that are kept current.

While the authority and the addresses stay, a call that owes a certificate goes on owing it until it
issues it, and a new subscription is owed one by the call that brings it.  A call that changes the
authority's chain owes a certificate to everybody from then on, and a call that changes the addresses
owes one to every server.
-/

namespace DeviceAccess

namespace Interleaving

/-- A round owes certificates to the subscriptions of a kind whose turn is still to come. -/
def Round.Owes (ok : List HostAddress → Prop) (kind : CertificateKind) : Round → Prop
  | rotation => True
  | servers addresses => kind = .server ∧ ok addresses
  | renewal _ => False

/-- A call is going to issue a certificate to the subscription of number `n` and a kind. -/
def Call.Owes (ok : List HostAddress → Prop) (kind : CertificateKind) (n : Nat) : Call → Prop
  | registered _ k | readying _ k => k = n
  | issuing _ k addresses => k = n ∧ ok addresses
  | reported | gathering => kind = .server
  | listing round => round.Owes ok kind
  | turning round left => round.Owes ok kind ∧ n ∈ left
  | reading round k left => round.Owes ok kind ∧ (k = n ∨ n ∈ left)
  | serving round k addresses left => round.Owes ok kind ∧ (k = n ∧ ok addresses ∨ n ∈ left)
  | asked _ | entering _ _ | leaving _ | done => False

/-- Whoever of some kinds is kept current has been served, or a call owes it a certificate. -/
def State.Awaited (σ : State) (ok : List HostAddress → Prop) (scope : CertificateKind → Prop)
    (served : Nat → Subscription → Prop) : Prop :=
  ∀ n sub, (n, sub) ∈ σ.shared.subscriptions.orders → scope sub.kind →
    served n sub ∨ ∃ c ∈ σ.calls, c.Owes ok sub.kind n

variable {tk : Toolkit} {now : Int} {s : Shared} {c : Call} {n : Nat} {sub : Subscription}
  {ok : List HostAddress → Prop} {addresses : List HostAddress}

namespace Shared

/-! ### What a step can do -/

/-- Who changes the chain goes on to take the list of subscriptions, to issue to all of them. -/
theorem replace_cases (s : Shared) (request : Request) {o : AuthorityOutcome}
    (hchanged : o.changed ≠ none ↔ o.store.chain ≠ s.gateway.authority.chain) :
    (s.replace request o).1.subscriptions = s.subscriptions ∧
      ((s.replace request o).2 = .listing .rotation ∨ (s.replace request o).1.chain = s.chain) := by
  unfold replace
  split
  · exact ⟨rfl, .inr rfl⟩
  · cases ho : o.changed with
    | none => exact ⟨rfl, .inr (by_contra fun hne => hchanged.2 hne ho)⟩
    | some chain => exact ⟨rfl, .inl rfl⟩

/-- A step issues a certificate, or hands nothing over.  Numbers only count upwards.  Who changes the
chain is going to list all subscriptions for it, and who changes the addresses has reported them. -/
theorem step_cases (tk : Toolkit) (now : Int) (s : Shared) (c : Call) :
    let s' := (s.step tk now c).1
    let c' := (s.step tk now c).2
    (∃ n addresses, c.issues? = some (n, addresses) ∧ s' = (s.issue tk now n addresses).1) ∨
      c.issues? = none ∧ s'.subscriptions.delivered = s.subscriptions.delivered ∧
        s.subscriptions.next ≤ s'.subscriptions.next ∧
        (c' = .listing .rotation ∨
          s'.chain = s.chain ∧ (c' = .reported ∨ s'.addresses = s.addresses)) := by
  cases c with
  | asked request =>
      have hreplaced : ∀ o : AuthorityOutcome,
          (o.changed ≠ none ↔ o.store.chain ≠ s.gateway.authority.chain) →
          s.step tk now (.asked request) = s.replace request o →
          let s' := (s.step tk now (.asked request)).1
          let c' := (s.step tk now (.asked request)).2
          s'.subscriptions.delivered = s.subscriptions.delivered ∧
            s.subscriptions.next ≤ s'.subscriptions.next ∧
            (c' = .listing .rotation ∨
              s'.chain = s.chain ∧ (c' = .reported ∨ s'.addresses = s.addresses)) := by
        intro o hchanged heq
        obtain ⟨hsame, hcases⟩ := replace_cases s request hchanged
        rw [heq]
        refine ⟨congrArg Subscriptions.delivered hsame, Nat.le_of_eq (congrArg Subscriptions.next hsame.symm),
          hcases.imp_right fun hchain => ⟨hchain, .inr ?_⟩⟩
        exact congrArg (fun m => m.reachability.all.toList) hsame
      refine .inr ⟨rfl, ?_⟩
      cases request with
      | subscribe key recipient =>
          unfold step accept
          simp only
          split
          · exact ⟨rfl, Nat.le_refl _, .inr ⟨rfl, .inr rfl⟩⟩
          · exact ⟨rfl, Nat.le_succ _, .inr ⟨rfl, .inr rfl⟩⟩
      | unsubscribe key =>
          unfold step accept
          simp only
          split
          · exact ⟨rfl, Nat.le_refl _, .inr ⟨rfl, .inr rfl⟩⟩
          · exact ⟨rfl, Nat.le_refl _, .inr ⟨rfl, .inr rfl⟩⟩
      | generate keyType =>
          exact hreplaced _ (AuthorityStore.changed_update_iff tk now _ _ keyType) rfl
      | install key chain =>
          exact hreplaced _ (AuthorityStore.changed_install_iff tk _ _ key chain) rfl
      | report source addresses =>
          refine ⟨rfl, Nat.le_refl _, .inr ⟨rfl, ?_⟩⟩
          have hempty := s.subscriptions.reachability.isEmpty_record_iff source addresses
          unfold step accept
          simp only
          split
          · next h => exact .inr (congrArg OrderedSet.toList (hempty.1 h))
          · exact .inl rfl
      | renew millis => exact ⟨rfl, Nat.le_refl _, .inr ⟨rfl, .inr rfl⟩⟩
  | issuing key n addresses => exact .inl ⟨n, addresses, rfl, rfl⟩
  | serving round n addresses left => exact .inl ⟨n, addresses, rfl, rfl⟩
  | turning round left =>
      refine .inr ⟨rfl, ?_⟩
      cases left with
      | nil =>
          cases round with
          | rotation => exact ⟨rfl, Nat.le_refl _, .inr ⟨rfl, .inr rfl⟩⟩
          | servers addresses => exact ⟨rfl, Nat.le_refl _, .inr ⟨rfl, .inr rfl⟩⟩
          | renewal millis => exact ⟨rfl, Nat.le_refl _, .inr ⟨rfl, .inr rfl⟩⟩
      | cons n left => exact ⟨rfl, Nat.le_refl _, .inr ⟨rfl, .inr rfl⟩⟩
  | registered key n => exact .inr ⟨rfl, rfl, Nat.le_refl _, .inr ⟨rfl, .inr rfl⟩⟩
  | readying key n => exact .inr ⟨rfl, rfl, Nat.le_refl _, .inr ⟨rfl, .inr rfl⟩⟩
  | entering key n => exact .inr ⟨rfl, rfl, Nat.le_refl _, .inr ⟨rfl, .inr rfl⟩⟩
  | leaving n => exact .inr ⟨rfl, rfl, Nat.le_refl _, .inr ⟨rfl, .inr rfl⟩⟩
  | reported => exact .inr ⟨rfl, rfl, Nat.le_refl _, .inr ⟨rfl, .inr rfl⟩⟩
  | gathering => exact .inr ⟨rfl, rfl, Nat.le_refl _, .inr ⟨rfl, .inr rfl⟩⟩
  | listing round => exact .inr ⟨rfl, rfl, Nat.le_refl _, .inr ⟨rfl, .inr rfl⟩⟩
  | reading round n left => exact .inr ⟨rfl, rfl, Nat.le_refl _, .inr ⟨rfl, .inr rfl⟩⟩
  | done => exact .inr ⟨rfl, rfl, Nat.le_refl _, .inr ⟨rfl, .inr rfl⟩⟩

/-- The last bundle of a subscription that is kept current stays, or is handed over by the step, for the
addresses that the call has read and from the authority in force. -/
theorem last?_step (hs : s.InOrder) (hok : s.succeeds tk now c = true)
    (hsub : (n, sub) ∈ s.subscriptions.orders) :
    let s' := (s.step tk now c).1
    (s'.subscriptions.last? n = s.subscriptions.last? n ∧
        ∀ addresses, c.issues? ≠ some (n, addresses)) ∨
      ∃ addresses ca b, c.issues? = some (n, addresses) ∧ s.gateway.authority.material = some ca ∧
        sub.Certified tk ca addresses b ∧
        s'.subscriptions.delivered = s.subscriptions.delivered ++ [⟨n, sub.recipient, b⟩] := by
  intro s'
  rcases step_cases tk now s c with ⟨k, addresses, hissues, hs'⟩ | ⟨hissues, hdelivered, -⟩
  · have hs' : s' = (s.issue tk now k addresses).1 := hs'
    rw [hs']
    by_cases hk : k = n
    · subst hk
      obtain ⟨sub', hsub', rfl⟩ := hs.subscription?_of_mem_orders hsub
      have hresult : (s.issue tk now k addresses).2 = .ok () := by
        unfold succeeds at hok
        rw [hissues] at hok
        exact of_decide_eq_true hok
      obtain ⟨ca, b, hca, hcertified, hdelivered⟩ := issue_handed hs hresult hsub'
      exact .inr ⟨addresses, ca, b, hissues, hca, hcertified, hdelivered⟩
    · refine .inl ⟨last?_issue_of_ne tk now s addresses hk, fun addresses' h => ?_⟩
      exact hk (congrArg Prod.fst (Option.some.inj (hissues.symm.trans h)))
  · refine .inl ⟨?_, fun addresses h => ?_⟩
    · unfold Subscriptions.last?
      rw [hdelivered]
    · rw [hissues] at h
      cases h

/-- Whoever is kept current after a step was so before, or is new and owed a certificate by the call. -/
theorem mem_orders_step (hs : s.InOrder)
    (hsub : (n, sub) ∈ (s.step tk now c).1.subscriptions.orders) :
    (n, sub) ∈ s.subscriptions.orders ∨
      n = s.subscriptions.next ∧ ∀ ok kind, (s.step tk now c).2.Owes ok kind n := by
  cases c with
  | asked request =>
      cases request with
      | subscribe key recipient =>
          revert hsub
          unfold step accept
          simp only
          split
          · exact fun hsub => .inl hsub
          · next world privateKey hdraw =>
              intro hsub
              rcases Subscriptions.mem_orders_enter.1 hsub with hsub | heq
              · exact .inl hsub
              · have hn := congrArg Prod.fst heq
                exact .inr ⟨hn, fun ok kind => hn.symm⟩
      | unsubscribe key =>
          revert hsub
          unfold step accept
          simp only
          split
          · exact fun hsub => .inl hsub
          · exact fun hsub => .inl hsub
      | generate keyType =>
          have hsame := (replace_cases s (.generate keyType)
            (AuthorityStore.changed_update_iff tk now s.gateway.authority s.gateway.world keyType)).1
          have hsub : (n, sub) ∈ (s.replace _ _).1.subscriptions.orders := hsub
          rw [hsame] at hsub
          exact .inl hsub
      | install key chain =>
          have hsame := (replace_cases s (.install key chain)
            (AuthorityStore.changed_install_iff tk s.gateway.authority s.gateway.world key chain)).1
          have hsub : (n, sub) ∈ (s.replace _ _).1.subscriptions.orders := hsub
          rw [hsame] at hsub
          exact .inl hsub
      | report source addresses => exact .inl hsub
      | renew millis => exact .inl hsub
  | issuing key k addresses => exact .inl ((sameRegistry_issue hs tk now k addresses).orders ▸ hsub)
  | serving round k addresses left =>
      exact .inl ((sameRegistry_issue hs tk now k addresses).orders ▸ hsub)
  | leaving k => exact .inl (Subscriptions.mem_orders_untrack.1 hsub).1
  | turning round left =>
      cases left with
      | nil =>
          cases round with
          | rotation => exact .inl hsub
          | servers addresses => exact .inl hsub
          | renewal millis => exact .inl hsub
      | cons k left => exact .inl hsub
  | registered key k => exact .inl hsub
  | readying key k => exact .inl hsub
  | entering key k => exact .inl hsub
  | reported => exact .inl hsub
  | gathering => exact .inl hsub
  | listing round => exact .inl hsub
  | reading round k left => exact .inl hsub
  | done => exact .inl hsub

/-- With an authority, a call that owes a certificate owes it after its next step as well, or that step
issues it. -/
theorem owes_step (tk : Toolkit) (now : Int) (hs : s.InOrder) (hready : s.gateway.authority.isReady = true)
    (hok : ok s.addresses) (hsub : (n, sub) ∈ s.subscriptions.orders) (h : c.Owes ok sub.kind n) :
    (s.step tk now c).2.Owes ok sub.kind n ∨ ∃ addresses, c.issues? = some (n, addresses) ∧ ok addresses := by
  cases c with
  | asked request => exact h.elim
  | registered key k =>
      left
      unfold step
      simp only [hready]
      exact h
  | readying key k => exact .inl ⟨h, hok⟩
  | issuing key k addresses =>
      obtain ⟨rfl, haddresses⟩ := h
      exact .inr ⟨addresses, rfl, haddresses⟩
  | entering key k => exact h.elim
  | leaving k => exact h.elim
  | reported =>
      left
      unfold step
      simp only [hready]
      exact h
  | gathering => exact .inl ⟨h, hok⟩
  | listing round =>
      refine .inl ⟨h, ?_⟩
      rw [← Subscriptions.map_fst_orders]
      exact List.mem_map_of_mem hsub
  | turning round left =>
      obtain ⟨hround, hn⟩ := h
      cases left with
      | nil => cases hn
      | cons k left =>
          left
          unfold step
          simp only
          split
          · cases round with
            | rotation => exact ⟨hround, (List.mem_cons.1 hn).imp_left Eq.symm⟩
            | servers addresses =>
                exact ⟨hround, (List.mem_cons.1 hn).imp_left fun h => ⟨h.symm, hround.2⟩⟩
            | renewal millis => exact hround.elim
          · next hturn =>
              refine ⟨hround, (List.mem_cons.1 hn).resolve_left ?_⟩
              -- It is the turn of everybody whom the round owes a certificate.
              rintro rfl
              obtain ⟨sub', hsub', rfl⟩ := hs.subscription?_of_mem_orders hsub
              rw [hsub'] at hturn
              cases round with
              | rotation => exact hturn rfl
              | servers addresses => exact hturn (decide_eq_true hround.1)
              | renewal millis => exact hround
  | reading round k left => exact .inl ⟨h.1, h.2.imp_left fun hk => ⟨hk, hok⟩⟩
  | serving round k addresses left =>
      obtain ⟨hround, ⟨rfl, haddresses⟩ | hn⟩ := h
      · exact .inr ⟨addresses, rfl, haddresses⟩
      · exact .inl ⟨hround, hn⟩
  | done => exact h.elim

end Shared

/-- Whether there is an authority shows in the chain. -/
theorem Shared.isReady_of_chain_eq {s' : Shared} (h : s'.chain = s.chain)
    (hready : s'.gateway.authority.isReady = true) : s.gateway.authority.isReady = true := by
  rw [AuthorityStore.isReady_iff_chain_ne_nil] at hready ⊢
  exact fun hnil => hready (h.trans hnil)

theorem Succeeds.of_advance {σ : State} {i : Nat} (hs : Succeeds tk σ (.advance now i))
    (hc : σ.calls[i]? = some c) : σ.shared.succeeds tk now c = true := by
  have hall : (σ.calls[i]?.all fun c => σ.shared.succeeds tk now c) = true := hs
  rw [hc] at hall
  exact hall

/-! ### Everybody is served or awaits it -/

/-- The call that took a step is among the calls. -/
theorem mem_set_of_getElem? {calls : List Call} {i : Nat} (hc : calls[i]? = some c) (c' : Call) :
    c' ∈ calls.set i c' :=
  List.mem_of_getElem? ((getElem?_set_eq_some_iff hc).2 (.inl ⟨rfl, rfl⟩))

namespace State

variable {σ : State} {i : Nat} {scope : CertificateKind → Prop} {served served' : Nat → Subscription → Prop}

/-- A call takes a step while the authority and the addresses stay: whom it issues a certificate to, for
addresses that are `ok`, is served by that. -/
theorem Awaited.advance (h : σ.Awaited ok scope served) (hσ : σ.InOrder) (hc : σ.calls[i]? = some c)
    (hready : σ.shared.gateway.authority.isReady = true) (hok : ok σ.shared.addresses)
    (hserved : ∀ n sub, (n, sub) ∈ σ.shared.subscriptions.orders → scope sub.kind → served n sub →
      served' n sub)
    (hissued : ∀ n sub addresses, (n, sub) ∈ σ.shared.subscriptions.orders → scope sub.kind →
      c.issues? = some (n, addresses) → ok addresses → served' n sub) :
    (State.mk (σ.shared.step tk now c).1 (σ.calls.set i (σ.shared.step tk now c).2)).Awaited ok scope
      served' := by
  intro n sub hsub hscope
  have hstepped := mem_set_of_getElem? hc (σ.shared.step tk now c).2
  rcases Shared.mem_orders_step hσ.shared hsub with hold | hnew
  · rcases h n sub hold hscope with hn | ⟨d, hd, howes⟩
    · exact .inl (hserved n sub hold hscope hn)
    · obtain ⟨j, hj⟩ := List.mem_iff_getElem?.1 hd
      by_cases hji : j = i
      · subst hji
        obtain rfl := Option.some.inj (hj.symm.trans hc)
        rcases Shared.owes_step tk now hσ.shared hready hok hold howes with
          hstill | ⟨addresses, hissues, haddresses⟩
        · exact .inr ⟨_, hstepped, hstill⟩
        · exact .inl (hissued n sub addresses hold hscope hissues haddresses)
      · exact .inr ⟨d, List.mem_of_getElem? ((getElem?_set_eq_some_iff hc).2 (.inr ⟨hji, hj⟩)), howes⟩
  · exact .inr ⟨_, hstepped, hnew.2 ok sub.kind⟩

/-- Further calls do not matter to those who are served or await it. -/
theorem Awaited.mono {σ' : State} (h : σ.Awaited ok scope served)
    (horders : σ'.shared.subscriptions.orders = σ.shared.subscriptions.orders)
    (hcalls : ∀ c ∈ σ.calls, c ∈ σ'.calls)
    (hserved : ∀ n sub, served n sub → served' n sub) : σ'.Awaited ok scope served' := by
  intro n sub hsub hscope
  rw [horders] at hsub
  refine (h n sub hsub hscope).imp (hserved n sub) ?_
  rintro ⟨d, hd, howes⟩
  exact ⟨d, hcalls d hd, howes⟩

/-- A call that owes a certificate to everybody. -/
theorem awaited_of_owes (hc : c ∈ σ.calls)
    (h : ∀ kind n, scope kind → c.Owes ok kind n) : σ.Awaited ok scope served :=
  fun _ sub _ hscope => .inr ⟨c, hc, h sub.kind _ hscope⟩

/-- When no call is on its way, everybody has been served. -/
theorem Awaited.served_of_quiet (h : σ.Awaited ok scope served) (hquiet : σ.Quiet)
    (hsub : (n, sub) ∈ σ.shared.subscriptions.orders) (hscope : scope sub.kind) : served n sub := by
  rcases h n sub hsub hscope with hn | ⟨c, hc, howes⟩
  · exact hn
  · rw [hquiet c hc] at howes
    exact howes.elim

end State

end Interleaving

end DeviceAccess
