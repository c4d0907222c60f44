import DeviceAccess.Proofs.Interleaving.Order

/-!
# A call without others

A call that takes all its steps before any other call does anything does to the gateway what the
gateway's operation does (`Interleaving.run_alone`).

The operation goes over the subscriptions as they were when it began; the call looks up each at its
turn.  Both find the same, since an issuance changes no other subscription.
-/

namespace DeviceAccess

namespace Interleaving

/-- What a request asks for, as one operation of the gateway. -/
def Request.perform (tk : Toolkit) (now : Int) (g : Gateway) : Request → Gateway
  | subscribe key recipient => (g.subscribe tk now key recipient).1
  | unsubscribe key => (g.unsubscribe key).1
  | generate keyType => (g.generateAuthority tk now keyType).1
  | install key chain => (g.importAuthority tk now ⟨key, chain⟩).1
  | report source addresses => (g.recordAddresses tk now source addresses).1
  | renew millis => (g.renew tk now millis).1

/-- A call takes its steps at one time, without others in between, and ends with the gateway as it is
then. -/
inductive Alone (tk : Toolkit) (now : Int) : Shared → Call → Gateway → Prop
  | done (g : Gateway) (retired : List (Nat × Subscription)) : Alone tk now ⟨g, retired, false⟩ .done g
  | step {s : Shared} {c : Call} {g : Gateway} :
    Alone tk now (s.step tk now c).1 (s.step tk now c).2 g → Alone tk now s c g

variable {tk : Toolkit} {now : Int} {s : Shared} {c : Call} {g g' : Gateway}
  {retired : List (Nat × Subscription)}

/-- A run in which one call takes its steps and nothing else happens. -/
theorem Alone.run (h : Alone tk now s c g) {calls : List Call} {i : Nat} (hc : calls[i]? = some c) :
    ∃ k retired, run tk ⟨s, calls⟩ (List.replicate k (.advance now i)) =
      ⟨⟨g, retired, false⟩, calls.set i .done⟩ := by
  induction h generalizing calls with
  | done g retired =>
      obtain ⟨hi, hdone⟩ := List.getElem?_eq_some_iff.1 hc
      refine ⟨0, retired, ?_⟩
      show State.mk _ calls = _
      rw [← hdone, List.set_getElem_self]
  | @step s c g _ ih =>
      have hi : i < calls.length := (List.getElem?_eq_some_iff.1 hc).1
      have hstepped : (calls.set i (s.step tk now c).2)[i]? = some (s.step tk now c).2 :=
        List.getElem?_set_self hi
      obtain ⟨k, retired, hrun⟩ := ih hstepped
      rw [List.set_set] at hrun
      refine ⟨k + 1, retired, ?_⟩
      rw [List.replicate_succ]
      refine Eq.trans ?_ hrun
      have hstep : Interleaving.step tk ⟨s, calls⟩ (.advance now i) =
          ⟨(s.step tk now c).1, calls.set i (s.step tk now c).2⟩ := step_advance tk hc now
      exact congrArg (Interleaving.run tk · (List.replicate k (.advance now i))) hstep

/-! ### Issuances -/

namespace Shared

/-- Replaces the subscriptions and the world. -/
def update (s : Shared) (m : Subscriptions) (w : World) : Shared :=
  { s with gateway := { s.gateway with subscriptions := m, world := w } }

/-- A tracked subscription is found by its number. -/
theorem subscription?_of_mem (hm : s.subscriptions.Numbered) {e : Nat × Subscription}
    (he : e ∈ s.subscriptions.tracked) : s.subscription? e.1 = some e.2 := by
  unfold subscription? known
  rw [List.find?_append]
  cases hfind : s.subscriptions.tracked.find? fun e' => e'.1 = e.1 with
  | none => exact absurd (decide_eq_true rfl) (List.find?_eq_none.1 hfind e he)
  | some e' =>
      have hnumber := List.find?_some hfind
      rw [hm.eq_of_mem (List.mem_of_find?_eq_some hfind) he (of_decide_eq_true hnumber)]
      rfl

/-- An issuance for the addresses as they are is one of the gateway's. -/
theorem issue_eq_issueTo (hm : s.subscriptions.Numbered) {e : Nat × Subscription}
    (he : e ∈ s.subscriptions.tracked) {m : Subscriptions} {w : World} {r : Except Fault Unit}
    (h : Subscriptions.issueTo tk now s.gateway.authority s.subscriptions s.gateway.world e =
      (m, w, r)) :
    ∃ retired, s.issue tk now e.1 s.addresses = ({ s.update m w with retired }, r) := by
  unfold Subscriptions.issueTo at h
  simp only [Prod.mk.injEq] at h
  obtain ⟨rfl, rfl, rfl⟩ := h
  unfold issue
  rw [subscription?_of_mem hm he]
  exact ⟨_, rfl⟩

/-- It is the turn of a tracked subscription if the round takes it. -/
theorem step_turning (hm : s.subscriptions.Numbered) {e : Nat × Subscription}
    (he : e ∈ s.subscriptions.tracked) (round : Round) (left : List Nat) :
    s.step tk now (.turning round (e.1 :: left)) =
      (s, if round.takes e.2 then round.turn e.1 left else .turning round left) := by
  show (s, if (s.subscription? e.1).any round.takes then round.turn e.1 left
    else .turning round left) = _
  rw [subscription?_of_mem hm he]
  rfl

end Shared

/-! ### Rounds -/

theorem Alone.of_step {s' : Shared} {c' : Call} (hstep : s.step tk now c = (s', c'))
    (h : Alone tk now s' c' g) : Alone tk now s c g := by
  refine .step ?_
  rw [hstep]
  exact h

/-- Whoever's turn it is gets a certificate for the addresses as they are. -/
theorem Alone.of_turn {round : Round} {n : Nat} {left : List Nat}
    (hround : ∀ addresses, round = .servers addresses → addresses = s.addresses)
    (h : Alone tk now s (.serving round n s.addresses left) g) :
    Alone tk now s (round.turn n left) g := by
  cases round with
  | servers addresses =>
      rw [← hround addresses rfl] at h
      exact h
  | rotation => exact .of_step rfl h
  | renewal millis => exact .of_step rfl h

/-- Whoever did not replace the authority is done when nobody is left. -/
theorem alone_turning_nil {round : Round} (hfree : round ≠ .rotation → s.replacing = false) :
    Alone tk now s (.turning round []) s.gateway := by
  have hdone : s.replacing = false → Alone tk now s .done s.gateway := by
    intro h
    have hs : s = ⟨s.gateway, s.retired, false⟩ := h ▸ rfl
    rw [hs]
    exact .done _ _
  cases round with
  | rotation => exact .of_step rfl (.done s.gateway s.retired)
  | servers addresses => exact .of_step rfl (hdone (hfree nofun))
  | renewal millis => exact .of_step rfl (hdone (hfree nofun))

/-- The turns of tracked subscriptions come to the issuances to those whom the round takes. -/
theorem alone_turning {round : Round} {es : List (Nat × Subscription)}
    (hfree : round ≠ .rotation → s.replacing = false)
    (hround : ∀ addresses, round = .servers addresses → addresses = s.addresses)
    (hm : s.subscriptions.Numbered) (hes : ∀ e ∈ es, e ∈ s.subscriptions.tracked)
    (hnodup : (es.map (·.1)).Nodup) (k : Nat) :
    let r := Subscriptions.issueEach tk now s.gateway.authority
      (s.subscriptions, s.gateway.world, k) (es.filter fun e => round.takes e.2)
    Alone tk now s (.turning round (es.map (·.1))) (s.update r.1 r.2.1).gateway := by
  induction es generalizing s k with
  | nil => exact alone_turning_nil hfree
  | cons e es ih =>
      have he := hes e List.mem_cons_self
      have hlater := fun e' he' => hes e' (List.mem_cons_of_mem e he')
      refine .of_step (Shared.step_turning hm he round _) ?_
      rw [List.filter_cons]
      split
      · refine .of_turn hround ?_
        rcases Subscriptions.issueTo_cases tk now s.gateway.authority s.gateway.world hm he with
          ⟨w, f, hissue⟩ | ⟨m, w, called, hissue, hhanded, -, hothers⟩
        · obtain ⟨retired, heq⟩ := Shared.issue_eq_issueTo hm he hissue
          rw [Subscriptions.issueEach_of_error hissue]
          refine .of_step (congrArg (fun r => (r.1, Call.turning round (es.map (·.1)))) heq) ?_
          exact ih (s := { s.update s.subscriptions w with retired }) hfree hround hm hlater hnodup.of_cons k
        · obtain ⟨retired, heq⟩ := Shared.issue_eq_issueTo hm he hissue
          rw [Subscriptions.issueEach_of_ok hissue]
          refine .of_step (congrArg (fun r => (r.1, Call.turning round (es.map (·.1)))) heq) ?_
          refine ih (s := { s.update m w with retired }) hfree ?_ (hhanded.numbered hm)
            (Subscriptions.tracked_later hes hnodup hothers) hnodup.of_cons (k + 1)
          intro addresses h
          refine (hround addresses h).trans ?_
          exact congrArg (fun r => r.all.toList) hhanded.reachability.symm
      · exact ih hfree hround hm hlater hnodup.of_cons k

/-- A round over all tracked subscriptions. -/
theorem alone_listing (round : Round) (hfree : round ≠ .rotation → s.replacing = false)
    (hround : ∀ addresses, round = .servers addresses → addresses = s.addresses)
    (hm : s.subscriptions.Numbered) :
    let r := Subscriptions.reissue tk now s.gateway.authority round.takes s.subscriptions
      s.gateway.world
    Alone tk now s (.listing round) (s.update r.1 r.2.1).gateway := by
  refine .of_step rfl (alone_turning hfree hround hm (fun e => id) ?_ 0)
  rw [← Subscriptions.map_fst_orders]
  exact hm

/-! ### Calls -/

/-- Who replaces the authority supplies everybody. -/
theorem alone_replace (hm : g.subscriptions.Numbered) {request : Request} {o : AuthorityOutcome}
    (hstep : (Shared.mk g retired false).step tk now (.asked request) =
      (Shared.mk g retired false).replace request o) :
    Alone tk now ⟨g, retired, false⟩ (.asked request) (g.settle tk now o).1 := by
  unfold Gateway.settle
  cases hchanged : o.changed with
  | none =>
      refine .of_step (hstep.trans ?_) (.done _ retired)
      unfold Shared.replace
      simp only [hchanged]
      rfl
  | some chain =>
      refine .of_step (hstep.trans ?_) (alone_listing .rotation
        (s := ⟨{ g with authority := o.store, world := o.world }, retired, true⟩)
        (fun h => absurd rfl h) nofun hm)
      unfold Shared.replace
      simp only [hchanged]
      rfl

/-- A subscription that is let stand for a name takes the place of the one that did so. -/
theorem alone_entering (key : SubscriptionKey) (n : Nat) :
    Alone tk now ⟨g, retired, false⟩ (.entering key n)
      { g with subscriptions := g.subscriptions.putLive key n } := by
  let entered := (Shared.mk g retired false).put
    { g.subscriptions with live := g.subscriptions.live.insert key n }
  unfold Subscriptions.putLive
  cases hold : g.subscriptions.live.get? key with
  | none =>
      have hstep : (Shared.mk g retired false).step tk now (.entering key n) = (entered, .done) := by
        unfold Shared.step Shared.subscriptions
        simp only [hold]
        rfl
      exact .of_step hstep (.done _ retired)
  | some old =>
      have hstep : (Shared.mk g retired false).step tk now (.entering key n) =
          (entered, .leaving old) := by
        unfold Shared.step Shared.subscriptions
        simp only [hold]
        rfl
      exact .of_step hstep (.of_step rfl (.done _ _))

theorem alone_unsubscribe (key : SubscriptionKey) :
    Alone tk now ⟨g, retired, false⟩ (.asked (.unsubscribe key)) (g.unsubscribe key).1 := by
  unfold Gateway.unsubscribe Subscriptions.unsubscribe
  cases hlive : g.subscriptions.live.get? key with
  | none =>
      refine .of_step (?_ : _ = (Shared.mk g retired false, .done)) (.done g retired)
      unfold Shared.step Shared.accept Shared.subscriptions
      simp only [hlive]
  | some n =>
      refine .of_step (?_ : _ = ((Shared.mk g retired false).put
        { g.subscriptions with live := g.subscriptions.live.erase key }, .leaving n))
        (.of_step rfl (.done _ _))
      unfold Shared.step Shared.accept Shared.subscriptions
      simp only [hlive]

section
variable {n : Nat} {sub : Subscription} {m : Subscriptions} {w : World}

/-- A new subscription stays when its first certificate is issued. -/
theorem alone_issuing (hm : g.subscriptions.Numbered) (hsub : (n, sub) ∈ g.subscriptions.tracked)
    (hissue : Subscriptions.issueTo tk now g.authority g.subscriptions g.world (n, sub) =
      (m, w, .ok ())) (key : SubscriptionKey) :
    Alone tk now ⟨g, retired, false⟩ (.issuing key n (Shared.mk g retired false).addresses)
      { g with subscriptions := m.putLive key n, world := w } := by
  obtain ⟨retired', heq⟩ := Shared.issue_eq_issueTo (s := ⟨g, retired, false⟩) hm hsub hissue
  refine .of_step (?_ : _ = ({ (Shared.mk g retired false).update m w with retired := retired' },
    .entering key n)) (alone_entering key n)
  unfold Shared.step
  simp only [heq]

/-- A new subscription goes again when its first certificate fails. -/
theorem alone_issuing_of_error {f : Fault} (hm : g.subscriptions.Numbered)
    (hsub : (n, sub) ∈ g.subscriptions.tracked)
    (hissue : Subscriptions.issueTo tk now g.authority g.subscriptions g.world (n, sub) =
      (m, w, .error f)) (key : SubscriptionKey) :
    Alone tk now ⟨g, retired, false⟩ (.issuing key n (Shared.mk g retired false).addresses)
      { g with subscriptions := m.untrack n, world := w } := by
  obtain ⟨retired', heq⟩ := Shared.issue_eq_issueTo (s := ⟨g, retired, false⟩) hm hsub hissue
  refine .of_step (?_ : _ = ({ (Shared.mk g retired false).update m w with retired := retired' },
    .leaving n)) (.of_step rfl (.done _ _))
  unfold Shared.step
  simp only [heq]

end

theorem alone_subscribe (hg : g.subscriptions.Registered) (key : SubscriptionKey)
    (recipient : Recipient) :
    Alone tk now ⟨g, retired, false⟩ (.asked (.subscribe key recipient))
      (g.subscribe tk now key recipient).1 := by
  unfold Gateway.subscribe Subscriptions.subscribe
  rcases hdraw : g.world.draw (tk.newKey g.subscriptions.settings.keyType) with
    ⟨world, e | privateKey⟩
  · refine .of_step ?_ (.done _ retired)
    unfold Shared.step Shared.accept Shared.subscriptions
    simp only [hdraw]
  · simp only
    generalize hnew : Subscription.new key.service key.kind privateKey recipient = new
    let tracking := { g with world, subscriptions := g.subscriptions.track new }
    have hregistered : (Shared.mk g retired false).step tk now (.asked (.subscribe key recipient)) =
        (⟨tracking, retired, false⟩, .registered key g.subscriptions.next) := by
      unfold Shared.step Shared.accept Shared.subscriptions
      simp only [hdraw, hnew]
      rfl
    have hasked : (Shared.mk tracking retired false).step tk now
        (.registered key g.subscriptions.next) =
        (⟨tracking, retired, false⟩, if g.authority.isReady = true
          then .readying key g.subscriptions.next else .entering key g.subscriptions.next) := rfl
    refine .of_step hregistered ?_
    cases hready : g.authority.isReady with
    | false =>
        rw [hready] at hasked
        exact .of_step hasked (alone_entering key g.subscriptions.next)
    | true =>
        rw [hready] at hasked
        refine .of_step hasked (.of_step rfl ?_)
        have hnumbered : tracking.subscriptions.Numbered := Subscriptions.numbered_enter hg new
        have htracked : (g.subscriptions.next, new) ∈ tracking.subscriptions.tracked :=
          List.mem_append_right _ (List.mem_singleton_self _)
        simp only [↓reduceIte]
        rcases hissue : Subscriptions.issueTo tk now g.authority (g.subscriptions.track new) world
          (g.subscriptions.next, new) with ⟨m, w, f | ⟨⟩⟩
        · exact alone_issuing_of_error (g := tracking) hnumbered htracked hissue key
        · exact alone_issuing (g := tracking) hnumbered htracked hissue key

theorem alone_report (hm : g.subscriptions.Numbered) (source : String)
    (addresses : List HostAddress) :
    Alone tk now ⟨g, retired, false⟩ (.asked (.report source addresses))
      (g.recordAddresses tk now source addresses).1 := by
  rcases hrecord : g.subscriptions.reachability.record source addresses with ⟨reachability, change⟩
  let recorded := { g with subscriptions := { g.subscriptions with reachability } }
  have hstep : (Shared.mk g retired false).step tk now (.asked (.report source addresses)) =
      (⟨recorded, retired, false⟩, if change.isEmpty then .done else .reported) := by
    unfold Shared.step Shared.accept Shared.subscriptions
    simp only [hrecord]
    rfl
  have hasked : (Shared.mk recorded retired false).step tk now .reported =
      (⟨recorded, retired, false⟩, if g.authority.isReady then .gathering else .done) := rfl
  unfold Gateway.recordAddresses Subscriptions.recordAddresses
  simp only [hrecord]
  cases hempty : change.isEmpty with
  | true =>
      rw [hempty] at hstep
      exact .of_step hstep (.done recorded retired)
  | false =>
      rw [hempty] at hstep
      refine .of_step hstep ?_
      cases hready : g.authority.isReady with
      | false =>
          rw [hready] at hasked
          exact .of_step hasked (.done recorded retired)
      | true =>
          rw [hready] at hasked
          refine .of_step hasked (.of_step rfl ?_)
          refine alone_listing _ (s := ⟨recorded, retired, false⟩) (fun _ => rfl) ?_ hm
          intro addresses h
          exact (Round.servers.inj h).symm

/-- **A call alone does what the gateway's operation does.**  If subscriptions are in order and nobody
is replacing the authority, a call that comes and takes all its steps with nothing in between leaves the
gateway as the operation does. -/
theorem run_alone (hg : g.subscriptions.Registered) (request : Request) (calls : List Call) :
    ∃ k retired', run tk ⟨⟨g, retired, false⟩, calls⟩
        (.call request :: List.replicate k (.advance now calls.length)) =
      ⟨⟨request.perform tk now g, retired', false⟩, calls ++ [.done]⟩ := by
  have halone : Alone tk now ⟨g, retired, false⟩ (.asked request) (request.perform tk now g) := by
    cases request with
    | subscribe key recipient => exact alone_subscribe hg key recipient
    | unsubscribe key => exact alone_unsubscribe key
    | generate keyType => exact alone_replace hg.numbered rfl
    | install key chain => exact alone_replace hg.numbered rfl
    | report source addresses => exact alone_report hg.numbered source addresses
    | renew millis =>
        exact .of_step rfl (alone_listing _ (s := ⟨g, retired, false⟩) (fun _ => rfl) nofun hg.numbered)
  have hlast : (calls ++ [.asked request])[calls.length]? = some (.asked request) :=
    List.getElem?_concat_length
  obtain ⟨k, retired', hrun⟩ := halone.run hlast
  refine ⟨k, retired', ?_⟩
  rw [List.set_append_right _ _ (Nat.le_refl _), Nat.sub_self] at hrun
  exact hrun

end Interleaving

end DeviceAccess
