import DeviceAccess.Gateway.Basic
import DeviceAccess.Proofs.Along
import DeviceAccess.Proofs.Leaf.Registry

/-!
# Calls at the same time

Calls of a gateway that run beside each other, in steps that nothing can come between: a subscription
joins or leaves those that are kept current, the authority is replaced, the authority or the addresses
are read, the list of subscriptions is taken, one certificate is issued.  Between two steps of a call any
other call may take steps of its own.

`Interleaving.Call` says how far a call has come, and `Interleaving.Shared.step` is its next step.  Where
a step of a call leaves several things to do, they are done in this order:

* A subscription is kept current before anything else; then the call asks for an authority, reads the
  addresses, has the first certificate issued, and lets the subscription stand for its name.
* Who replaces the authority keeps others from replacing it until all have their new certificates.
* Who reports addresses reads the addresses again, once for all servers, before the list of
  subscriptions is taken.  All others read them for each subscription at its turn.

A subscription that is no longer kept current is remembered, because calls may have it on their list.
-/

namespace DeviceAccess

namespace Interleaving

/-- What is asked of a gateway. -/
inductive Request where
  | subscribe (key : SubscriptionKey) (recipient : Recipient)
  | unsubscribe (key : SubscriptionKey)
  | generate (keyType : KeyType)
  | install (key : String) (chain : List String)
  | report (source : String) (addresses : List HostAddress)
  | renew (millis : Int)

/-- Why certificates are issued to many subscriptions, one after the other. -/
inductive Round where
  /-- The authority's chain changed: it is everybody's turn. -/
  | rotation
  /-- The gateway's addresses changed: servers get certificates for the addresses that were read. -/
  | servers (addresses : List HostAddress)
  /-- It is the turn of those whose certificates are due at a time. -/
  | renewal (millis : Int)

/-- How far a call has come; numbers are those of subscriptions. -/
inductive Call where
  | asked (request : Request)
  /-- The subscription is kept current.  Next: is there an authority? -/
  | registered (key : SubscriptionKey) (n : Nat)
  /-- There is an authority.  Next: the addresses. -/
  | readying (key : SubscriptionKey) (n : Nat)
  /-- Next: the first certificate. -/
  | issuing (key : SubscriptionKey) (n : Nat) (addresses : List HostAddress)
  /-- Next: the subscription stands for its name. -/
  | entering (key : SubscriptionKey) (n : Nat)
  /-- Next: the subscription is no longer kept current. -/
  | leaving (n : Nat)
  /-- The addresses changed.  Next: is there an authority? -/
  | reported
  /-- There is an authority.  Next: the addresses. -/
  | gathering
  /-- Next: the list of subscriptions. -/
  | listing (round : Round)
  /-- Next: is it the turn of the first that is left? -/
  | turning (round : Round) (left : List Nat)
  /-- It is.  Next: the addresses. -/
  | reading (round : Round) (n : Nat) (left : List Nat)
  /-- Next: the certificate. -/
  | serving (round : Round) (n : Nat) (addresses : List HostAddress) (left : List Nat)
  | done

/-- Whether it is the turn of a subscription. -/
def Round.takes : Round → Subscription → Bool
  | rotation, _ => true
  | servers _, s => s.kind = .server
  | renewal millis, s => s.isDue millis

/-- The turn of a subscription. -/
def Round.turn (round : Round) (n : Nat) (left : List Nat) : Call :=
  match round with
  | servers addresses => .serving round n addresses left
  | rotation | renewal _ => .reading round n left

/-- The subscription that the next step of a call issues a certificate to, with the addresses that the
call has read for it. -/
def Call.issues? : Call → Option (Nat × List HostAddress)
  | issuing _ n addresses | serving _ n addresses _ => some (n, addresses)
  | _ => none

/-! ### What calls share -/

/-- What calls work on. -/
structure Shared where
  gateway : Gateway
  /-- The subscriptions that are no longer kept current. -/
  retired : List (Nat × Subscription)
  /-- Whether a call is replacing the authority. -/
  replacing : Bool

namespace Shared

/-- The subscriptions that are kept current. -/
def subscriptions (s : Shared) : Subscriptions := s.gateway.subscriptions

/-- The chain in force. -/
def chain (s : Shared) : List String := s.gateway.authority.chain

/-- The gateway's addresses. -/
def addresses (s : Shared) : List HostAddress := s.subscriptions.reachability.all.toList

/-- All subscriptions that a call may have on its list. -/
def known (s : Shared) : List (Nat × Subscription) := s.subscriptions.tracked ++ s.retired

/-- The subscription of a number. -/
def subscription? (s : Shared) (n : Nat) : Option Subscription :=
  (s.known.find? fun e => e.1 = n).map (·.2)

/-- Replaces the subscriptions that are kept current. -/
def put (s : Shared) (m : Subscriptions) : Shared :=
  { s with gateway := { s.gateway with subscriptions := m } }

/-- Stops keeping a subscription current. -/
def retire (s : Shared) (n : Nat) : Shared :=
  { s.put (s.subscriptions.untrack n) with
    retired := s.retired ++ s.subscriptions.tracked.filter fun e => e.1 = n }

/-- The next step of a round that is over: who replaced the authority lets others do so. -/
def release (s : Shared) : Round → Shared
  | .rotation => { s with replacing := false }
  | .servers _ | .renewal _ => s

variable (tk : Toolkit) (now : Int)

/-- Issues a certificate for addresses. -/
def issue (s : Shared) (n : Nat) (addresses : List HostAddress) : Shared × Except Fault Unit :=
  match s.subscription? n with
  | none => (s, .ok ())
  | some subscription =>
    let g := s.gateway
    let i := subscription.issue tk now g.authority g.subscriptions.settings g.world addresses
    ({ s with
        gateway := { g with subscriptions := g.subscriptions.record n i, world := i.world }
        retired := s.retired.map fun e => if e.1 = n then (n, i.subscription) else e },
      i.result)

/-- Replaces the authority, unless another call is about it. -/
def replace (s : Shared) (request : Request) (o : AuthorityOutcome) : Shared × Call :=
  if s.replacing then (s, .asked request)
  else
    let gateway := { s.gateway with authority := o.store, world := o.world }
    match o.changed with
    | none => ({ s with gateway }, .done)
    | some _ => ({ s with gateway, replacing := true }, .listing .rotation)

/-- The first step of a call. -/
def accept (s : Shared) (request : Request) : Shared × Call :=
  let g := s.gateway
  let m := s.subscriptions
  match request with
  | .subscribe key recipient =>
    match g.world.draw (tk.newKey m.settings.keyType) with
    | (world, .error _) => ({ s with gateway := { g with world } }, .done)
    | (world, .ok privateKey) =>
      let subscriptions := m.track (.new key.service key.kind privateKey recipient)
      ({ s with gateway := { g with world, subscriptions } }, .registered key m.next)
  | .unsubscribe key =>
    match m.live.get? key with
    | some n => (s.put { m with live := m.live.erase key }, .leaving n)
    | none => (s, .done)
  | .generate keyType => s.replace request (g.authority.update tk now g.world keyType)
  | .install key chain => s.replace request (g.authority.install tk g.world key chain)
  | .report source addresses =>
    let (reachability, change) := m.reachability.record source addresses
    (s.put { m with reachability }, if change.isEmpty then .done else .reported)
  | .renew millis => (s, .listing (.renewal millis))

/-- The next step of a call. -/
def step (s : Shared) : Call → Shared × Call
  | .asked request => s.accept tk now request
  | .registered key n =>
    (s, if s.gateway.authority.isReady then .readying key n else .entering key n)
  | .readying key n => (s, .issuing key n s.addresses)
  | .issuing key n addresses =>
    let r := s.issue tk now n addresses
    (r.1, match r.2 with
      | .ok () => .entering key n
      | .error _ => .leaving n)
  | .entering key n =>
    (s.put { s.subscriptions with live := s.subscriptions.live.insert key n },
      match s.subscriptions.live.get? key with
      | some old => .leaving old
      | none => .done)
  | .leaving n => (s.retire n, .done)
  | .reported => (s, if s.gateway.authority.isReady then .gathering else .done)
  | .gathering => (s, .listing (.servers s.addresses))
  | .listing round => (s, .turning round (s.subscriptions.tracked.map (·.1)))
  | .turning round [] => (s.release round, .done)
  | .turning round (n :: left) =>
    (s, if (s.subscription? n).any round.takes then round.turn n left else .turning round left)
  | .reading round n left => (s, .serving round n s.addresses left)
  | .serving round n addresses left => ((s.issue tk now n addresses).1, .turning round left)
  | .done => (s, .done)

end Shared

/-! ### Runs -/

/-- A gateway with the calls that were made of it, in the order they came. -/
structure State where
  shared : Shared
  calls : List Call

namespace State

/-- A gateway that nobody has called. -/
def start (g : Gateway) : State := ⟨⟨g, [], false⟩, []⟩

/-- No call is on its way. -/
def Quiet (σ : State) : Prop := ∀ c ∈ σ.calls, c = .done

instance (σ : State) : Decidable σ.Quiet :=
  decidable_of_iff ((σ.calls.all fun c => match c with | .done => true | _ => false) = true) (by
    unfold Quiet
    rw [List.all_eq_true]
    refine forall₂_congr fun c _ => ?_
    cases c <;> simp)

end State

/-- What happens next. -/
inductive Event where
  /-- A call comes. -/
  | call (request : Request)
  /-- A call takes a step, at a time. -/
  | advance (now : Int) (i : Nat)
  /-- Something else writes files or draws random bytes. -/
  | elsewhere (world : World)

variable (tk : Toolkit)

/-- The state after an event. -/
def step (σ : State) : Event → State
  | .call request => { σ with calls := σ.calls ++ [.asked request] }
  | .advance now i =>
    match σ.calls[i]? with
    | none => σ
    | some c =>
      let (shared, c) := σ.shared.step tk now c
      ⟨shared, σ.calls.set i c⟩
  | .elsewhere world =>
    { σ with shared := { σ.shared with gateway := { σ.shared.gateway with world } } }

theorem step_advance {σ : State} {i : Nat} {c : Call} (hc : σ.calls[i]? = some c) (now : Int) :
    step tk σ (.advance now i) =
      ⟨(σ.shared.step tk now c).1, σ.calls.set i (σ.shared.step tk now c).2⟩ := by
  unfold step
  simp only [hc]

theorem step_advance_of_none {σ : State} {i : Nat} (hc : σ.calls[i]? = none) (now : Int) :
    step tk σ (.advance now i) = σ := by
  unfold step
  simp only [hc]

/-- An event is the next step of a call, or nothing happens to the authority, the subscriptions and the
calls on their way. -/
theorem step_cases (σ : State) (event : Event) :
    (∃ now i c, event = .advance now i ∧ σ.calls[i]? = some c ∧
      step tk σ event = ⟨(σ.shared.step tk now c).1, σ.calls.set i (σ.shared.step tk now c).2⟩) ∨
    (step tk σ event).shared.gateway.authority = σ.shared.gateway.authority ∧
      (step tk σ event).shared.subscriptions = σ.shared.subscriptions ∧
      ∀ c ∈ σ.calls, c ∈ (step tk σ event).calls := by
  cases event with
  | call request => exact .inr ⟨rfl, rfl, fun c hc => List.mem_append_left _ hc⟩
  | elsewhere world => exact .inr ⟨rfl, rfl, fun c => id⟩
  | advance now i =>
      cases hc : σ.calls[i]? with
      | none =>
          rw [step_advance_of_none tk hc]
          exact .inr ⟨rfl, rfl, fun c => id⟩
      | some c => exact .inl ⟨now, i, c, rfl, hc, step_advance tk hc now⟩

/-- The state after events, one after the other. -/
def run (σ : State) (events : List Event) : State := events.foldl (step tk) σ

/-- If the next step of a call is an issuance, it succeeds. -/
def Shared.succeeds (now : Int) (s : Shared) (c : Call) : Bool :=
  c.issues?.all fun p => (s.issue tk now p.1 p.2).2 = .ok ()

/-- No issuance of an event fails. -/
def Succeeds (σ : State) : Event → Prop
  | .advance now i => (σ.calls[i]?.all fun c => σ.shared.succeeds tk now c) = true
  | .call _ | .elsewhere _ => True

/-- No issuance of a run fails. -/
def NoFailures (σ : State) (events : List Event) : Prop := Along (step tk) (Succeeds tk) σ events

instance decidableSucceeds (σ : State) : (event : Event) → Decidable (Succeeds tk σ event)
  | .advance _ _ => inferInstanceAs (Decidable (_ = true))
  | .call _ | .elsewhere _ => inferInstanceAs (Decidable True)

instance decidableNoFailures (σ : State) (events : List Event) :
    Decidable (NoFailures tk σ events) :=
  inferInstanceAs (Decidable (Along (step tk) (Succeeds tk) σ events))

end Interleaving

end DeviceAccess
