import DeviceAccess.Proofs.Authority.Store
import DeviceAccess.Proofs.Leaf.Issuing
import DeviceAccess.Proofs.Reachability

/-!
# The registry of subscriptions

Subscriptions are known by number in the registry and by name outside.  `Subscriptions.Registered` says
that the two go together: the live subscriptions are the tracked ones, numbers are never used twice, and
to have a certificate is to have been handed a bundle.  A new subscription joins in the place of the one
that stood for its name, one that is given up leaves, and issuing changes nothing of this.

`Subscriptions.subscribe` is to join and then to be issued a certificate
(`Subscriptions.subscribe_handed`).
-/

namespace DeviceAccess

namespace Subscriptions

/-- Takes in a new subscription, in the place of the one that stood for its name. -/
def join (m : Subscriptions) (s : Subscription) : Subscriptions :=
  (m.track s).putLive s.name m.next

/-- The live subscriptions are the tracked ones.  Numbers count upwards, and a subscription has a
certificate exactly if a bundle was handed to it. -/
structure Registered (m : Subscriptions) : Prop where
  numbered : m.Numbered
  lt_next : ∀ n s, (n, s) ∈ m.orders → n < m.next
  live_iff : ∀ key n, m.live.get? key = some n ↔ ∃ s, (n, s) ∈ m.orders ∧ s.name = key
  delivered_lt : ∀ d ∈ m.delivered, d.number < m.next
  holds_iff : ∀ n s, (n, s) ∈ m.orders → (m.Holds n ↔ ∃ d ∈ m.delivered, d.number = n)

section
variable {m m' : Subscriptions} {s : Subscription} {key : SubscriptionKey}

theorem registered_empty (settings : LeafSettings) : (empty settings).Registered where
  numbered := List.nodup_nil
  lt_next := nofun
  live_iff _ _ := ⟨nofun, nofun⟩
  delivered_lt := nofun
  holds_iff := nofun

/-- The registry does not depend on settings and addresses. -/
theorem Registered.congr (hm : m.Registered) (htracked : m'.tracked = m.tracked)
    (hlive : m'.live = m.live) (hnext : m'.next = m.next) (hdelivered : m'.delivered = m.delivered) :
    m'.Registered := by
  cases m
  cases m'
  subst htracked hlive hnext hdelivered
  exact ⟨hm.numbered, hm.lt_next, hm.live_iff, hm.delivered_lt, hm.holds_iff⟩

theorem Registered.order_unique (hm : m.Registered) {n : Nat} {s' : Subscription}
    (hs : (n, s) ∈ m.orders) (hs' : (n, s') ∈ m.orders) : s = s' :=
  congrArg Prod.snd (List.inj_on_of_nodup_map hm.numbered hs hs' rfl)

theorem Handed.registered {tk : Toolkit} {authority : AuthorityStore} {called : List Delivery}
    (h : Handed tk authority m m' called) (hm : m.Registered) : m'.Registered where
  numbered := h.numbered hm.numbered
  lt_next := by
    rw [h.orders, h.next]
    exact hm.lt_next
  live_iff := by
    rw [h.orders, h.live]
    exact hm.live_iff
  delivered_lt d hd := by
    rw [h.delivered, List.mem_append] at hd
    rw [h.next]
    rcases hd with hd | hd
    · exact hm.delivered_lt d hd
    · obtain ⟨ca, s, -, hs, -⟩ := h.bundles d hd
      exact hm.lt_next d.number s hs
  holds_iff n s hs := by
    rw [h.orders] at hs
    rw [h.holds, hm.holds_iff n s hs, h.delivered]
    simp only [List.mem_append, List.mem_map, or_and_right, exists_or]

/-! ### Subscriptions that go -/

theorem mem_orders_untrack {n : Nat} {e : Nat × Subscription} :
    e ∈ (m.untrack n).orders ↔ e ∈ m.orders ∧ e.1 ≠ n := by
  unfold orders untrack
  simp only [List.mem_map, List.mem_filter, decide_eq_true_eq]
  constructor
  · rintro ⟨e', ⟨he', hn⟩, rfl⟩
    exact ⟨⟨e', he', rfl⟩, hn⟩
  · rintro ⟨⟨e', he', rfl⟩, hn⟩
    exact ⟨e', ⟨he', hn⟩, rfl⟩

theorem numbered_untrack (hm : m.Numbered) (n : Nat) : (m.untrack n).Numbered := by
  unfold Numbered at hm ⊢
  rw [map_fst_orders] at hm ⊢
  exact hm.sublist (List.filter_sublist.map _)

theorem holds_untrack {n k : Nat} : (m.untrack n).Holds k ↔ m.Holds k ∧ k ≠ n := by
  unfold Holds untrack
  simp only [List.mem_filter, decide_eq_true_eq]
  constructor
  · rintro ⟨s, ⟨hs, hk⟩, hexpiry⟩
    exact ⟨⟨s, hs, hexpiry⟩, hk⟩
  · rintro ⟨⟨s, hs, hexpiry⟩, hk⟩
    exact ⟨s, ⟨hs, hk⟩, hexpiry⟩

/-- Another name stands for another number. -/
theorem Registered.live_injective (hm : m.Registered) {key' : SubscriptionKey} {n : Nat}
    (h : m.live.get? key = some n) (h' : m.live.get? key' = some n) : key = key' := by
  obtain ⟨s, hs, rfl⟩ := (hm.live_iff key n).1 h
  obtain ⟨s', hs', rfl⟩ := (hm.live_iff key' n).1 h'
  rw [hm.order_unique hs hs']

/-- What the registry says of numbers stays true when a subscription goes. -/
theorem registered_untrack (hm : m.Registered) {n : Nat} {live : OrderedMap SubscriptionKey Nat}
    (hlive : ∀ key k, live.get? key = some k ↔ m.live.get? key = some k ∧ k ≠ n) :
    ({ m with live }.untrack n).Registered where
  numbered := numbered_untrack hm.numbered n
  lt_next k s hs := hm.lt_next k s (mem_orders_untrack.1 hs).1
  live_iff key k := by
    refine (hlive key k).trans ?_
    rw [hm.live_iff]
    constructor
    · rintro ⟨⟨s, hs, hname⟩, hk⟩
      exact ⟨s, mem_orders_untrack.2 ⟨hs, hk⟩, hname⟩
    · rintro ⟨s, hs, hname⟩
      obtain ⟨hs, hk⟩ := mem_orders_untrack.1 hs
      exact ⟨⟨s, hs, hname⟩, hk⟩
  delivered_lt := hm.delivered_lt
  holds_iff k s hs := by
    obtain ⟨hs, hk⟩ := mem_orders_untrack.1 hs
    rw [holds_untrack, and_iff_left hk]
    exact hm.holds_iff k s hs

/-- Giving up a subscription leaves the registry in order. -/
theorem registered_unsubscribe (hm : m.Registered) (key : SubscriptionKey) :
    (m.unsubscribe key).1.Registered := by
  unfold unsubscribe
  split
  · next n hn =>
      refine registered_untrack hm fun key' k => ?_
      rw [OrderedMap.get?_erase]
      split
      · next heq =>
          subst heq
          rw [hn]
          simp [eq_comm]
      · next hne =>
          refine ⟨fun hk => ⟨hk, ?_⟩, And.left⟩
          rintro rfl
          exact hne (hm.live_injective hn hk)
  · exact hm

/-- What is left after a subscription was given up was there before. -/
theorem mem_orders_unsubscribe {e : Nat × Subscription} :
    e ∈ (m.unsubscribe key).1.orders ↔ e ∈ m.orders ∧ m.live.get? key ≠ some e.1 := by
  unfold unsubscribe
  split
  · next n hn =>
      refine mem_orders_untrack.trans ?_
      rw [hn, Ne, Ne, Option.some.injEq, eq_comm]
      rfl
  · next hn => simp [hn]

theorem frame_unsubscribe (m : Subscriptions) (key : SubscriptionKey) :
    (m.unsubscribe key).1.next = m.next ∧ (m.unsubscribe key).1.delivered = m.delivered ∧
      (m.unsubscribe key).1.settings = m.settings ∧
      (m.unsubscribe key).1.reachability = m.reachability := by
  unfold unsubscribe
  split
  · exact ⟨rfl, rfl, rfl, rfl⟩
  · exact ⟨rfl, rfl, rfl, rfl⟩

theorem live_unsubscribe (m : Subscriptions) (key key' : SubscriptionKey) :
    (m.unsubscribe key).1.live.get? key' = if key = key' then none else m.live.get? key' := by
  unfold unsubscribe
  split
  · exact OrderedMap.get?_erase m.live key key'
  · next hn =>
      split
      · next heq => exact heq ▸ hn
      · rfl

/-! ### Subscriptions that join -/

/-- Takes in a new subscription under a name that is free. -/
def enter (m : Subscriptions) (s : Subscription) : Subscriptions :=
  { m.track s with live := m.live.insert s.name m.next }

/-- To join is to take the place of the one that goes. -/
theorem join_eq_enter (hm : m.Registered) (s : Subscription) :
    m.join s = (m.unsubscribe s.name).1.enter s := by
  unfold join putLive unsubscribe
  simp only [track]
  cases hold : m.live.get? s.name with
  | none => rfl
  | some old =>
      obtain ⟨s', hs', -⟩ := (hm.live_iff s.name old).1 hold
      have hlt := hm.lt_next old s' hs'
      have hnext : [(m.next, s)].filter (fun e => e.1 ≠ old) = [(m.next, s)] :=
        List.filter_cons_of_pos (by simpa using (Nat.ne_of_lt hlt).symm)
      simp only [enter, track, untrack, List.filter_append, OrderedMap.insert_erase_self]
      rw [hnext]

theorem mem_orders_enter {e : Nat × Subscription} :
    e ∈ (m.enter s).orders ↔ e ∈ m.orders ∨ e = (m.next, s.made) := by
  unfold orders enter track
  rw [List.map_append, List.mem_append, List.map_singleton, List.mem_singleton]

theorem numbered_enter (hm : m.Registered) (s : Subscription) : (m.enter s).Numbered := by
  show ((m.tracked ++ [(m.next, s)]).map fun e => (e.1, e.2.made)).map (·.1) |>.Nodup
  rw [List.map_append, List.map_append, List.nodup_append]
  refine ⟨hm.numbered, List.nodup_singleton _, ?_⟩
  intro n hn k hk
  obtain ⟨e, he, rfl⟩ := List.mem_map.1 hn
  obtain rfl := List.mem_singleton.1 hk
  exact Nat.ne_of_lt (hm.lt_next e.1 e.2 he)

theorem live_enter_iff (hm : m.Registered) (hfree : m.live.get? s.name = none)
    (key : SubscriptionKey) (n : Nat) :
    (m.enter s).live.get? key = some n ↔
      ∃ s', (n, s') ∈ (m.enter s).orders ∧ s'.name = key := by
  have hinsert : (m.enter s).live.get? key =
      if s.name = key then some m.next else m.live.get? key :=
    OrderedMap.get?_insert m.live s.name key m.next
  rw [hinsert]
  constructor
  · intro h
    split at h
    · next hname =>
        obtain rfl := Option.some.inj h
        exact ⟨s.made, mem_orders_enter.2 (.inr rfl), hname⟩
    · obtain ⟨s', hs', hname⟩ := (hm.live_iff key n).1 h
      exact ⟨s', mem_orders_enter.2 (.inl hs'), hname⟩
  · rintro ⟨s', hs', hname⟩
    rcases mem_orders_enter.1 hs' with hs' | heq
    · have hlive := (hm.live_iff key n).2 ⟨s', hs', hname⟩
      rw [if_neg, hlive]
      rintro rfl
      rw [hfree] at hlive
      cases hlive
    · obtain ⟨rfl, rfl⟩ := Prod.mk.inj heq
      exact if_pos hname

theorem holds_enter (hs : s.expiry = none) {n : Nat} : (m.enter s).Holds n ↔ m.Holds n := by
  unfold Holds enter track
  refine exists_congr fun s' => ?_
  rw [List.mem_append, List.mem_singleton, or_and_right, or_iff_left]
  rintro ⟨heq, hexpiry⟩
  obtain ⟨-, rfl⟩ := Prod.mk.inj heq
  rw [hs] at hexpiry
  cases hexpiry

theorem registered_enter (hm : m.Registered) (hfree : m.live.get? s.name = none)
    (hs : s.expiry = none) : (m.enter s).Registered where
  numbered := numbered_enter hm s
  lt_next n s' hs' := by
    rcases mem_orders_enter.1 hs' with hs' | heq
    · exact Nat.lt_succ_of_lt (hm.lt_next n s' hs')
    · obtain ⟨rfl, -⟩ := Prod.mk.inj heq
      exact Nat.lt_succ_self _
  live_iff := live_enter_iff hm hfree
  delivered_lt d hd := Nat.lt_succ_of_lt (hm.delivered_lt d hd)
  holds_iff n s' hs' := by
    rw [holds_enter hs]
    rcases mem_orders_enter.1 hs' with hs' | heq
    · exact hm.holds_iff n s' hs'
    · -- The new number was neither tracked nor handed anything before.
      obtain ⟨rfl, -⟩ := Prod.mk.inj heq
      constructor
      · rintro ⟨s', hs', -⟩
        exact absurd (hm.lt_next m.next s'.made (mem_orders_of_mem hs')) (Nat.lt_irrefl _)
      · rintro ⟨d, hd, heq⟩
        exact absurd (heq ▸ hm.delivered_lt d hd) (Nat.lt_irrefl _)

/-- A new subscription without a certificate leaves the registry in order. -/
theorem registered_join (hm : m.Registered) (hs : s.expiry = none) : (m.join s).Registered := by
  rw [join_eq_enter hm]
  refine registered_enter (registered_unsubscribe hm s.name) ?_ hs
  rw [live_unsubscribe, if_pos rfl]

theorem mem_orders_join (hm : m.Registered) {e : Nat × Subscription} :
    e ∈ (m.join s).orders ↔
      (e ∈ m.orders ∧ m.live.get? s.name ≠ some e.1) ∨ e = (m.next, s.made) := by
  rw [join_eq_enter hm, mem_orders_enter, mem_orders_unsubscribe, (frame_unsubscribe m s.name).1]

theorem mem_tracked_join (hm : m.Registered) (s : Subscription) :
    (m.next, s) ∈ (m.join s).tracked := by
  rw [join_eq_enter hm, ← (frame_unsubscribe m s.name).1]
  exact List.mem_append_right _ (List.mem_singleton_self _)

/-- To let a subscription stand for a name concerns names and tracked subscriptions only. -/
theorem frame_putLive (m : Subscriptions) (key : SubscriptionKey) (number : Nat) :
    (m.putLive key number).next = m.next ∧ (m.putLive key number).delivered = m.delivered ∧
      (m.putLive key number).settings = m.settings ∧
      (m.putLive key number).reachability = m.reachability := by
  unfold putLive
  simp only
  split
  · exact ⟨rfl, rfl, rfl, rfl⟩
  · exact ⟨rfl, rfl, rfl, rfl⟩

theorem frame_join (m : Subscriptions) (s : Subscription) :
    (m.join s).next = m.next + 1 ∧ (m.join s).delivered = m.delivered ∧
      (m.join s).settings = m.settings ∧ (m.join s).reachability = m.reachability :=
  frame_putLive (m.track s) s.name m.next

theorem live_join (m : Subscriptions) (s : Subscription) (key : SubscriptionKey) :
    (m.join s).live.get? key = if s.name = key then some m.next else m.live.get? key := by
  have hlive : (m.join s).live = m.live.insert s.name m.next := by
    unfold join putLive
    simp only
    split
    · rfl
    · rfl
  rw [hlive, OrderedMap.get?_insert]

/-! ### Subscribing -/

theorem record_putLive (m : Subscriptions) (key : SubscriptionKey) (number n : Nat) (i : Issuance) :
    (m.putLive key number).record n i = (m.record n i).putLive key number := by
  unfold putLive
  simp only [record]
  split
  · simp only [untrack, List.filter_map]
    congr 3
    funext e
    simp only [Function.comp_apply]
    split
    · next he => rw [he]
    · rfl
  · rfl

/-- An issuance is the same before and after its subscription takes its place. -/
theorem issueTo_putLive (tk : Toolkit) (now : Int) (authority : AuthorityStore) (m : Subscriptions)
    (w : World) (e : Nat × Subscription) (key : SubscriptionKey) (number : Nat) :
    issueTo tk now authority (m.putLive key number) w e =
      ((issueTo tk now authority m w e).1.putLive key number,
        (issueTo tk now authority m w e).2) := by
  obtain ⟨-, -, hsettings, hreachability⟩ := frame_putLive m key number
  unfold issueTo
  simp only
  rw [hsettings, hreachability, record_putLive]

theorem subscribe_of_error {tk : Toolkit} {w w' : World} {f : Fault} (now : Int)
    (authority : AuthorityStore) (recipient : Recipient)
    (h : w.draw (tk.newKey m.settings.keyType) = (w', .error f)) :
    subscribe tk now authority m w key recipient = (m, w', .error f) := by
  unfold subscribe
  rw [h]

theorem subscribe_of_not_ready {tk : Toolkit} {now : Int} {authority : AuthorityStore}
    {w w' : World} {privateKey : PrivateKey} {recipient : Recipient}
    (hdraw : w.draw (tk.newKey m.settings.keyType) = (w', .ok privateKey))
    (hready : authority.isReady = false) :
    subscribe tk now authority m w key recipient =
      (m.join (.new key.service key.kind privateKey recipient), w', .ok ()) := by
  unfold subscribe
  rw [hdraw]
  simp only
  rw [hready, if_neg Bool.false_ne_true]
  rfl

/-- With an authority, to subscribe is to join and to be issued a first certificate. -/
theorem subscribe_eq_issueTo {tk : Toolkit} {now : Int} {authority : AuthorityStore}
    {w w' : World} {privateKey : PrivateKey} {recipient : Recipient}
    (hdraw : w.draw (tk.newKey m.settings.keyType) = (w', .ok privateKey))
    (hready : authority.isReady = true)
    (hok : (subscribe tk now authority m w key recipient).2.2 = .ok ()) :
    subscribe tk now authority m w key recipient =
      issueTo tk now authority (m.join (.new key.service key.kind privateKey recipient)) w'
        (m.next, .new key.service key.kind privateKey recipient) := by
  unfold subscribe at hok ⊢
  rw [hdraw] at hok ⊢
  simp only at hok ⊢
  rw [if_pos hready] at hok ⊢
  unfold join
  rw [issueTo_putLive]
  rcases hissue : issueTo tk now authority
    (m.track (.new key.service key.kind privateKey recipient)) w'
    (m.next, .new key.service key.kind privateKey recipient) with ⟨m₁, w₁, f | ⟨⟩⟩
  · rw [hissue] at hok
    cases hok
  · rfl

/-- A subscription that succeeds is handed its first bundle at once if there is an authority. -/
theorem subscribe_handed {tk : Toolkit} {now : Int} {authority : AuthorityStore} {w w' : World}
    {privateKey : PrivateKey} {recipient : Recipient} (hm : m.Registered)
    (hdraw : w.draw (tk.newKey m.settings.keyType) = (w', .ok privateKey))
    (hok : (subscribe tk now authority m w key recipient).2.2 = .ok ()) :
    ∃ called, Handed tk authority (m.join (.new key.service key.kind privateKey recipient))
        (subscribe tk now authority m w key recipient).1 called ∧
      called.map (·.number) = if authority.isReady then [m.next] else [] := by
  cases hready : authority.isReady with
  | false =>
      rw [subscribe_of_not_ready hdraw hready]
      exact ⟨[], .refl _, rfl⟩
  | true =>
      have heq := subscribe_eq_issueTo hdraw hready hok
      rw [heq] at hok ⊢
      have hjoin := registered_join (s := .new key.service key.kind privateKey recipient) hm rfl
      rcases issueTo_cases tk now authority w' hjoin.numbered (mem_tracked_join hm _) with
        ⟨w'', f, h⟩ | ⟨m', w'', called, h, hhanded, hnumbers, -⟩
      · rw [h] at hok
        cases hok
      · rw [h]
        refine ⟨called, hhanded, hnumbers.trans (if_neg ?_)⟩
        simp [Subscription.keeps, Subscription.new]

/-! ### Who is called -/

/-- The subscription of a number was handed a bundle and keeps it, because rotation is disabled. -/
def Kept (m : Subscriptions) (n : Nat) : Prop :=
  m.settings.rotationDisabled = true ∧ ∃ d ∈ m.delivered, d.number = n

theorem keeps_iff_kept (hm : m.Registered) {e : Nat × Subscription} (he : e ∈ m.tracked) :
    e.2.keeps m.settings = true ↔ m.Kept e.1 := by
  unfold Subscription.keeps Kept
  rw [Bool.and_eq_true, ← hm.numbered.holds_iff he, hm.holds_iff e.1 _ (mem_orders_of_mem he)]

/-- If all issuances to the subscriptions of some kinds succeed, exactly those of them that are live and
do not keep what they have are handed a bundle, and each of them once. -/
theorem reissue_called {tk : Toolkit} {now : Int} {authority : AuthorityStore} {w : World}
    (hm : m.Registered) (kinds : CertificateKind → Bool)
    (hall : AllIssued tk now authority (fun s => kinds s.kind) m w) :
    ∃ called, Handed tk authority m (reissue tk now authority (fun s => kinds s.kind) m w).1 called ∧
      (called.map (·.number)).Nodup ∧ ∀ n, n ∈ called.map (·.number) ↔
        (∃ key, m.live.get? key = some n ∧ kinds key.kind = true) ∧ ¬m.Kept n := by
  obtain ⟨called, hhanded, hnumbers⟩ := reissue_handed hm.numbered hall
  refine ⟨called, hhanded, ?_, fun n => ?_⟩
  · rw [hnumbers]
    exact nodup_tracked_filter hm.numbered _
  · rw [hnumbers, List.mem_map]
    constructor
    · rintro ⟨e, he, rfl⟩
      rw [List.mem_filter, Bool.and_eq_true, Bool.not_eq_true'] at he
      obtain ⟨he, hkind, hkeeps⟩ := he
      refine ⟨⟨e.2.name, (hm.live_iff _ _).2 ⟨_, mem_orders_of_mem he, rfl⟩, hkind⟩, fun hkept => ?_⟩
      rw [(keeps_iff_kept hm he).2 hkept] at hkeeps
      cases hkeeps
    · rintro ⟨⟨key, hlive, hkind⟩, hkept⟩
      obtain ⟨s, hs, rfl⟩ := (hm.live_iff key n).1 hlive
      obtain ⟨e, he, heq⟩ := List.mem_map.1 hs
      obtain ⟨rfl, rfl⟩ := Prod.mk.inj heq
      refine ⟨e, List.mem_filter.2 ⟨he, ?_⟩, rfl⟩
      rw [Bool.and_eq_true, Bool.not_eq_true', ← Bool.not_eq_true, keeps_iff_kept hm he]
      exact ⟨hkind, hkept⟩

/-! ### The last bundle -/

/-- The bundle that was handed over last to the subscription of a number. -/
def last? (m : Subscriptions) (n : Nat) : Option Bundle :=
  (m.delivered.reverse.find? fun d => d.number = n).map (·.bundle)

/-- The bundle that is handed over last is the last one of its subscription and of no other. -/
theorem last?_of_append {d : Delivery} (h : m'.delivered = m.delivered ++ [d]) (n : Nat) :
    m'.last? n = if d.number = n then some d.bundle else m.last? n := by
  unfold last?
  rw [h, List.reverse_append]
  split
  · next hn => simp [hn]
  · next hn => simp [hn]

/-- If there is a chain in force, the last bundle of a subscription comes from an authority with this
chain, for the addresses of the gateway. -/
def IsCurrent (tk : Toolkit) (chain : List String) (m : Subscriptions) (n : Nat)
    (s : Subscription) : Prop :=
  chain ≠ [] → ∃ b ca, m.last? n = some b ∧ ca.chain = chain ∧
    s.Certified tk ca m.reachability.all.toList b

/-- To be current depends on the bundles handed over and on the addresses. -/
theorem IsCurrent.congr {tk : Toolkit} {chain : List String} {n : Nat}
    (h : m.IsCurrent tk chain n s) (hdelivered : m'.delivered = m.delivered)
    (haddresses : m'.reachability.all = m.reachability.all) : m'.IsCurrent tk chain n s := by
  unfold IsCurrent last? at h ⊢
  rw [hdelivered, haddresses]
  exact h

/-- Other addresses do not matter to a client. -/
theorem IsCurrent.of_client {tk : Toolkit} {chain : List String} {n : Nat}
    (h : m.IsCurrent tk chain n s) (hkind : s.kind = .client) (reachability : Reachability) :
    { m with reachability }.IsCurrent tk chain n s := by
  intro hchain
  obtain ⟨b, ca, hlast, hca, hcertified⟩ := h hchain
  exact ⟨b, ca, hlast, hca, hcertified.of_client hkind _⟩

theorem Handed.last?_of_not_mem {tk : Toolkit} {authority : AuthorityStore} {called : List Delivery}
    (h : Handed tk authority m m' called) {n : Nat} (hn : n ∉ called.map (·.number)) :
    m'.last? n = m.last? n := by
  have hnone : called.reverse.find? (fun d => d.number = n) = none := by
    rw [List.find?_eq_none]
    intro d hd
    simpa using fun heq : d.number = n => hn (heq ▸ List.mem_map_of_mem (List.mem_reverse.1 hd))
  unfold last?
  rw [h.delivered, List.reverse_append, List.find?_append, hnone]
  rfl

theorem Handed.last?_of_mem {tk : Toolkit} {authority : AuthorityStore} {called : List Delivery}
    (h : Handed tk authority m m' called) {n : Nat} (hn : n ∈ called.map (·.number)) :
    ∃ d ∈ called, d.number = n ∧ m'.last? n = some d.bundle := by
  unfold last?
  rw [h.delivered, List.reverse_append, List.find?_append]
  cases hfind : called.reverse.find? (fun d => d.number = n) with
  | none =>
      obtain ⟨d, hd, rfl⟩ := List.mem_map.1 hn
      rw [List.find?_eq_none] at hfind
      exact absurd (decide_eq_true rfl) (hfind d (List.mem_reverse.2 hd))
  | some d =>
      have hnumber := List.find?_some hfind
      exact ⟨d, List.mem_reverse.1 (List.mem_of_find?_eq_some hfind), of_decide_eq_true hnumber, rfl⟩

/-- Whoever was called is current, and whoever was current and not called still is. -/
theorem Handed.isCurrent {tk : Toolkit} {authority : AuthorityStore} {called : List Delivery}
    (h : Handed tk authority m m' called) (hm : m.Registered)
    (hothers : ∀ n s, (n, s) ∈ m.orders → n ∉ called.map (·.number) →
      m.IsCurrent tk authority.chain n s) {n : Nat} (hs : (n, s) ∈ m'.orders) :
    m'.IsCurrent tk authority.chain n s := by
  rw [h.orders] at hs
  unfold IsCurrent
  rw [h.reachability]
  by_cases hn : n ∈ called.map (·.number)
  · obtain ⟨d, hd, rfl, hlast⟩ := h.last?_of_mem hn
    obtain ⟨ca, s', hca, hs', -, hcertified⟩ := h.bundles d hd
    obtain rfl := hm.order_unique hs hs'
    exact fun _ => ⟨d.bundle, ca, hlast, (AuthorityStore.chain_of_material hca).symm, hcertified⟩
  · rw [h.last?_of_not_mem hn]
    exact hothers n s hs hn

end

end Subscriptions

end DeviceAccess
