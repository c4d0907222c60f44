import DeviceAccess.Proofs.Deployment.Waiting
import DeviceAccess.Proofs.Leaf.Registry

/-!
# Where bundles go

The bundles of a name go to the recipient of the subscription that stands for it
(`Subscriptions.recipient?`).  Subscribing under a name gives it a new recipient, giving it up takes the
recipient away, and nothing else that happens to a gateway changes where bundles go: neither what goes on
in the background (`Gateway.keptBy_supplies`) nor a new authority, new addresses or new settings.
-/

namespace DeviceAccess

/-- Where bundles go.  Directories whose paths have the same components are one place. -/
inductive Place where
  | caller (name : String)
  | directory (components : List String)
  deriving DecidableEq

/-- The place of a recipient. -/
def Recipient.place : Recipient → Place
  | .caller name => .caller name
  | .directory path => .directory path.components

namespace Subscriptions

/-- The recipient of the subscription that stands for a name. -/
def recipient? (m : Subscriptions) (key : SubscriptionKey) : Option Recipient :=
  (m.live.get? key).bind fun n =>
    ((m.tracked.find? fun e => e.1 = n).map (·.2)).map Subscription.recipient

section
variable {m m' : Subscriptions} {s : Subscription} {key : SubscriptionKey} {recipient : Recipient}

/-- In a registry that is in order, the recipient of a name is the one its subscription was made for. -/
theorem recipient?_eq_some_iff (hm : m.Registered) :
    m.recipient? key = some recipient ↔
      ∃ n s, (n, s) ∈ m.orders ∧ s.name = key ∧ s.recipient = recipient := by
  have hnodup : (m.tracked.map (·.1)).Nodup := map_fst_orders m ▸ hm.numbered
  have htracked : ∀ n, ((m.tracked.find? fun e => e.1 = n).map (·.2)).map Subscription.recipient =
      some recipient ↔ ∃ s, (n, s) ∈ m.orders ∧ s.recipient = recipient := by
    intro n
    rw [Option.map_eq_some_iff]
    constructor
    · rintro ⟨s, hs, hrecipient⟩
      exact ⟨s.made, mem_orders_of_mem ((OrderedMap.find?_eq_some_iff_mem hnodup).1 hs), hrecipient⟩
    · rintro ⟨s, hs, hrecipient⟩
      obtain ⟨e, he, heq⟩ := List.mem_map.1 hs
      obtain ⟨rfl, rfl⟩ := Prod.mk.inj heq
      exact ⟨e.2, (OrderedMap.find?_eq_some_iff_mem hnodup).2 he, hrecipient⟩
  unfold recipient?
  simp only [Option.bind_eq_some_iff, htracked, hm.live_iff]
  constructor
  · rintro ⟨n, ⟨s, hs, hname⟩, s', hs', hrecipient⟩
    obtain rfl := hm.order_unique hs hs'
    exact ⟨n, s, hs, hname, hrecipient⟩
  · rintro ⟨n, s, hs, hname, hrecipient⟩
    exact ⟨n, ⟨s, hs, hname⟩, s, hs, hrecipient⟩

/-- Recipients depend on the subscriptions as they were made. -/
theorem recipient?_congr (hm : m.Registered) (hm' : m'.Registered) (h : m'.orders = m.orders)
    (key : SubscriptionKey) : m'.recipient? key = m.recipient? key := by
  refine Option.ext fun recipient => ?_
  rw [recipient?_eq_some_iff hm', recipient?_eq_some_iff hm, h]

/-- Issuances keep every recipient. -/
theorem recipient?_reissue (tk : Toolkit) (now : Int) (authority : AuthorityStore)
    (hm : m.Registered) (due : Subscription → Bool) (w : World) :
    (reissue tk now authority due m w).1.Registered ∧
      ∀ key, (reissue tk now authority due m w).1.recipient? key = m.recipient? key := by
  obtain ⟨called, hhanded⟩ := exists_handed_reissue tk now authority hm.numbered due w
  have hm' := hhanded.registered hm
  exact ⟨hm', recipient?_congr hm hm' hhanded.orders⟩

/-- Who gives up a name takes the recipient of this name away and of no other. -/
theorem recipient?_unsubscribe (hm : m.Registered) (key key' : SubscriptionKey) :
    (m.unsubscribe key).1.recipient? key' = if key = key' then none else m.recipient? key' := by
  split
  · next heq =>
      unfold recipient?
      rw [live_unsubscribe, if_pos heq]
      rfl
  · next hne =>
      have hstays : ∀ n s, (n, s) ∈ m.orders → s.name = key' → m.live.get? key ≠ some n := by
        rintro n s hs rfl hn
        exact hne (hm.live_injective hn ((hm.live_iff s.name n).2 ⟨s, hs, rfl⟩))
      refine Option.ext fun recipient => ?_
      rw [recipient?_eq_some_iff (registered_unsubscribe hm key), recipient?_eq_some_iff hm]
      simp only [mem_orders_unsubscribe]
      constructor
      · rintro ⟨n, s, ⟨hs, -⟩, hrest⟩
        exact ⟨n, s, hs, hrest⟩
      · rintro ⟨n, s, hs, hname, hrecipient⟩
        exact ⟨n, s, ⟨hs, hstays n s hs hname⟩, hname, hrecipient⟩

/-- A new subscription brings its recipient under its name. -/
theorem recipient?_join (hm : m.Registered) (hs : s.expiry = none) (key : SubscriptionKey) :
    (m.join s).recipient? key = if s.name = key then some s.recipient else m.recipient? key := by
  have hleft : ∀ recipient, (m.unsubscribe s.name).1.recipient? key = some recipient ↔
      ∃ n s', (n, s') ∈ (m.unsubscribe s.name).1.orders ∧ s'.name = key ∧ s'.recipient = recipient :=
    fun recipient => recipient?_eq_some_iff (registered_unsubscribe hm s.name)
  refine Option.ext fun recipient => ?_
  have hnew : (m.join s).recipient? key = some recipient ↔
      (m.unsubscribe s.name).1.recipient? key = some recipient ∨
        s.name = key ∧ s.recipient = recipient := by
    rw [recipient?_eq_some_iff (registered_join hm hs), hleft, join_eq_enter hm]
    simp only [mem_orders_enter, or_and_right, exists_or, Prod.mk.injEq]
    refine or_congr_right ⟨?_, ?_⟩
    · rintro ⟨n, s', ⟨-, rfl⟩, hname, hrecipient⟩
      exact ⟨hname, hrecipient⟩
    · rintro ⟨hname, hrecipient⟩
      exact ⟨_, _, ⟨rfl, rfl⟩, hname, hrecipient⟩
  rw [hnew, recipient?_unsubscribe hm]
  split
  · next heq => simp [heq]
  · next hne => simp [hne]

/-- **A subscription that succeeds** brings its recipient under its name and changes no other. -/
theorem recipient?_subscribe {tk : Toolkit} {now : Int} {authority : AuthorityStore} {w : World}
    (hm : m.Registered) (hok : (subscribe tk now authority m w key recipient).2.2 = .ok ()) :
    (subscribe tk now authority m w key recipient).1.Registered ∧
      ∀ key', (subscribe tk now authority m w key recipient).1.recipient? key' =
        if key = key' then some recipient else m.recipient? key' := by
  rcases hdraw : w.draw (tk.newKey m.settings.keyType) with ⟨w', e | privateKey⟩
  · rw [subscribe_of_error now authority recipient hdraw] at hok
    cases hok
  · obtain ⟨called, hhanded, -⟩ := subscribe_handed hm hdraw hok
    have hjoin := registered_join (s := .new key.service key.kind privateKey recipient) hm rfl
    have hm' := hhanded.registered hjoin
    refine ⟨hm', fun key' => ?_⟩
    rw [recipient?_congr hjoin hm' hhanded.orders, recipient?_join hm rfl]
    rfl

end

end Subscriptions

namespace Gateway

/-- Where the bundles of a name go; nowhere if no subscription stands for it. -/
def place? (g : Gateway) (key : SubscriptionKey) : Option Place :=
  (g.subscriptions.recipient? key).map Recipient.place

/-- The registry is in order, and the bundles of each name go to its place. -/
structure Supplies (g : Gateway) (places : SubscriptionKey → Option Place) : Prop where
  registered : g.subscriptions.Registered
  place? : ∀ key, g.place? key = places key

variable {tk : Toolkit} {g g' : Gateway} {places : SubscriptionKey → Option Place}

/-- Whatever keeps the registry in order and every recipient keeps the places. -/
theorem Supplies.congr (h : g.Supplies places) (hm : g'.subscriptions.Registered)
    (hrecipient : ∀ key, g'.subscriptions.recipient? key = g.subscriptions.recipient? key) :
    g'.Supplies places where
  registered := hm
  place? key := by
    rw [← h.place? key]
    exact congrArg (·.map Recipient.place) (hrecipient key)

/-- What goes on in the background changes no place. -/
theorem keptBy_supplies (tk : Toolkit) (places : SubscriptionKey → Option Place) :
    KeptByPasses tk fun g => g.Supplies places where
  refresh _ h := ⟨h.registered, h.place?⟩
  closeIdle _ _ h := ⟨h.registered, h.place?⟩
  renew {g} now millis h := by
    obtain ⟨hm, hrecipient⟩ := Subscriptions.recipient?_reissue tk now g.authority h.registered
      (fun s => s.isDue millis) g.world
    exact h.congr hm hrecipient

/-- Neither does an operation on the authority. -/
theorem Supplies.settle (h : g.Supplies places) (now : Int) (o : AuthorityOutcome) :
    (g.settle tk now o).1.Supplies places := by
  unfold Gateway.settle
  cases o.changed with
  | none => exact ⟨h.registered, h.place?⟩
  | some chain =>
      obtain ⟨hm, hrecipient⟩ := Subscriptions.recipient?_reissue tk now o.store h.registered
        (fun _ => true) o.world
      exact h.congr hm hrecipient

/-- Nor do settings of issued certificates. -/
theorem Supplies.configure (h : g.Supplies places) (settings : LeafSettings) :
    { g with subscriptions := g.subscriptions.configure settings }.Supplies places :=
  h.congr (h.registered.congr rfl rfl rfl rfl) fun _ => rfl

/-- Nor do addresses. -/
theorem Supplies.recordAddresses (h : g.Supplies places) (now : Int) (source : String)
    (addresses : List HostAddress) :
    (g.recordAddresses tk now source addresses).1.Supplies places := by
  unfold Gateway.recordAddresses Subscriptions.recordAddresses
  have hm : ({ g.subscriptions with
      reachability := (g.subscriptions.reachability.record source addresses).1 } :
      Subscriptions).Registered := h.registered.congr rfl rfl rfl rfl
  simp only
  split
  · exact h.congr hm fun _ => rfl
  · obtain ⟨hm', hrecipient⟩ := Subscriptions.recipient?_reissue tk now g.authority hm
      (fun s => s.kind = .server) g.world
    exact h.congr hm' hrecipient

theorem Supplies.unsubscribe (h : g.Supplies places) (key : SubscriptionKey) :
    (g.unsubscribe key).1.Supplies fun key' => if key = key' then none else places key' where
  registered := Subscriptions.registered_unsubscribe h.registered key
  place? key' := by
    have hrecipient := Subscriptions.recipient?_unsubscribe h.registered key key'
    show ((g.subscriptions.unsubscribe key).1.recipient? key').map Recipient.place = _
    rw [hrecipient]
    split
    · rfl
    · exact h.place? key'

theorem Supplies.subscribe {now : Int} {key : SubscriptionKey} {recipient : Recipient}
    (h : g.Supplies places) (hok : (g.subscribe tk now key recipient).2 = .ok ()) :
    (g.subscribe tk now key recipient).1.Supplies fun key' =>
      if key = key' then some recipient.place else places key' := by
  obtain ⟨hm, hrecipient⟩ := Subscriptions.recipient?_subscribe h.registered hok
  refine ⟨hm, fun key' => ?_⟩
  refine (congrArg (·.map Recipient.place) (hrecipient key')).trans ?_
  split
  · rfl
  · exact h.place? key'

end Gateway

end DeviceAccess
