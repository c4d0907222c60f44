import DeviceAccess.Leaf.Key
import DeviceAccess.Leaf.Subscription

/-!
# All subscriptions

The subscriptions of the gateway with the settings and the addresses that certificates are issued
with.  Every subscription has a number of its own; `tracked` holds those that are kept current, and
`live` tells which of them stands for a name.  Subscribing anew under a name replaces the subscription
that stood for it, once the new one has its first certificate (`Subscriptions.subscribe`).

All other certificates come from `Subscriptions.reissue`, which goes over the tracked subscriptions
that meet a condition, oldest first; one that fails does not keep the rest from theirs.  It is used
when the authority's chain changes (all), when the gateway's addresses change (servers), and when
certificates come to their end (those that are due).
-/

namespace DeviceAccess

/-- A bundle that was handed over, with the number of its subscription. -/
structure Delivery where
  number : Nat
  recipient : Recipient
  bundle : Bundle
  deriving DecidableEq

/-- The subscriptions of the gateway. -/
structure Subscriptions where
  /-- The subscriptions that are kept current, by number, oldest first. -/
  tracked : List (Nat × Subscription)
  /-- The number of the subscription that stands for a name. -/
  live : OrderedMap SubscriptionKey Nat
  /-- The number of the next subscription. -/
  next : Nat
  settings : LeafSettings
  reachability : Reachability
  /-- All bundles that were handed over, oldest first. -/
  delivered : List Delivery
  deriving DecidableEq

namespace Subscriptions

/-- No subscriptions yet. -/
def empty (settings : LeafSettings) : Subscriptions :=
  ⟨[], ∅, 0, settings.clamped, .empty, []⟩

/-- Number of subscriptions that stand for a name. -/
def size (m : Subscriptions) : Nat := m.live.size

/-- Puts settings in force, with validities within their bounds; they count from the next issuance
on. -/
def configure (m : Subscriptions) (settings : LeafSettings) : Subscriptions :=
  { m with settings := settings.clamped }

/-! ### Single steps -/

/-- Starts to keep a subscription current, under the next number. -/
def track (m : Subscriptions) (s : Subscription) : Subscriptions :=
  { m with tracked := m.tracked ++ [(m.next, s)], next := m.next + 1 }

/-- Stops keeping a subscription current. -/
def untrack (m : Subscriptions) (number : Nat) : Subscriptions :=
  { m with tracked := m.tracked.filter fun e => e.1 ≠ number }

/-- Lets a tracked subscription stand for a name; the one that stood for it goes. -/
def putLive (m : Subscriptions) (key : SubscriptionKey) (number : Nat) : Subscriptions :=
  let before := m.live.get? key
  let m := { m with live := m.live.insert key number }
  match before with
  | some old => m.untrack old
  | none => m

/-- Takes note of an issuance. -/
def record (m : Subscriptions) (number : Nat) (i : Issuance) : Subscriptions :=
  { m with
    tracked := m.tracked.map fun e => if e.1 = number then (number, i.subscription) else e
    delivered := match i.delivered with
      | some bundle => m.delivered ++ [⟨number, i.subscription.recipient, bundle⟩]
      | none => m.delivered }

section Issuing

variable (tk : Toolkit) (now : Int) (authority : AuthorityStore)

/-- Issues a certificate to a tracked subscription, for the gateway's addresses. -/
def issueTo (m : Subscriptions) (w : World) (e : Nat × Subscription) :
    Subscriptions × World × Except Fault Unit :=
  let i := e.2.issue tk now authority m.settings w m.reachability.all.toList
  (m.record e.1 i, i.world, i.result)

/-- Issues certificates to the tracked subscriptions that meet a condition; the number is how many
succeeded. -/
def reissue (due : Subscription → Bool) (m : Subscriptions) (w : World) :
    Subscriptions × World × Nat :=
  (m.tracked.filter fun e => due e.2).foldl (fun (m, w, n) e =>
    match issueTo tk now authority m w e with
    | (m, w, .ok ()) => (m, w, n + 1)
    | (m, w, .error _) => (m, w, n)) (m, w, 0)

/-! ### Operations -/

/-- Subscribes under a name.  The first certificate is issued at once if there is an authority; if
that fails, all subscriptions stay as they were. -/
def subscribe (m : Subscriptions) (w : World) (key : SubscriptionKey) (recipient : Recipient) :
    Subscriptions × World × Except Fault Unit :=
  match w.draw (tk.newKey m.settings.keyType) with
  | (w, .error e) => (m, w, .error e)
  | (w, .ok privateKey) =>
    let number := m.next
    let s := Subscription.new key.service key.kind privateKey recipient
    let m := m.track s
    if authority.isReady then
      match issueTo tk now authority m w (number, s) with
      | (m, w, .error e) => (m.untrack number, w, .error e)
      | (m, w, .ok ()) => (m.putLive key number, w, .ok ())
    else (m.putLive key number, w, .ok ())

/-- Gives up the subscription of a name; the second part is whether there was one. -/
def unsubscribe (m : Subscriptions) (key : SubscriptionKey) : Subscriptions × Bool :=
  match m.live.get? key with
  | some number => ({ m with live := m.live.erase key }.untrack number, true)
  | none => (m, false)

/-- Issues new certificates to all, after the authority's chain changed. -/
def chainChanged (m : Subscriptions) (w : World) : Subscriptions × World :=
  let (m, w, _) := reissue tk now authority (fun _ => true) m w
  (m, w)

/-- Records the addresses that a source reports.  If the gateway's addresses change while there is an
authority, servers get new certificates. -/
def recordAddresses (m : Subscriptions) (w : World) (source : String)
    (addresses : List HostAddress) : Subscriptions × World × ReachabilityChange :=
  let (reachability, change) := m.reachability.record source addresses
  let m := { m with reachability }
  if change.isEmpty || !authority.isReady then (m, w, change)
  else
    let (m, w, _) := reissue tk now authority (fun s => s.kind = .server) m w
    (m, w, change)

/-- Renews the certificates that are due at a time, given in milliseconds since the start of 1970;
the number is how many renewals succeeded. -/
def renew (m : Subscriptions) (w : World) (millis : Int) : Subscriptions × World × Nat :=
  reissue tk now authority (fun s => s.isDue millis) m w

end Issuing

end Subscriptions

end DeviceAccess
