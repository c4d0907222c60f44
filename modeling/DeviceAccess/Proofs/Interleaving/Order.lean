import DeviceAccess.Proofs.Interleaving.Calls

/-!
# The registry under interleaved calls

A name stands for a subscription that is kept current, whatever calls are on their way.  A subscription
that is about to join or to leave belongs to the one call that brings it or takes it away
(`Interleaving.Call.claims?`), so no other call lets it stand for a name or stops it in between.
`Interleaving.State.InOrder` says so of a state, and every event keeps it.
-/

namespace DeviceAccess

/-- An issuance leaves a subscription as it was made. -/
theorem Subscription.made_issue (tk : Toolkit) (now : Int) (authority : AuthorityStore)
    (settings : LeafSettings) (s : Subscription) (w : World) (addresses : List HostAddress) :
    (s.issue tk now authority settings w addresses).subscription.made = s.made := by
  rcases s.issue_cases tk now authority settings w addresses with
    ⟨-, hi⟩ | ⟨-, ⟨w', e, hi⟩ | ⟨w', ca, expiry, b, -, -, hi⟩⟩
  · rw [hi]
  · rw [hi]
  · rw [hi]
    rfl

namespace Interleaving

/-- The name and the number of the subscription that a call is about to let stand for the name. -/
def Call.coming? : Call → Option (SubscriptionKey × Nat)
  | registered key n | readying key n | issuing key n _ | entering key n => some (key, n)
  | _ => none

/-- The number of the subscription that a call brings or takes away. -/
def Call.claims? : Call → Option Nat
  | registered _ n | readying _ n | issuing _ n _ | entering _ n | leaving n => some n
  | _ => none

theorem Call.claims?_of_coming? {c : Call} {key : SubscriptionKey} {n : Nat}
    (h : c.coming? = some (key, n)) : c.claims? = some n := by
  cases c <;> simp_all [coming?, claims?]

variable {tk : Toolkit} {now : Int} {s s' : Shared} {n : Nat} {addresses : List HostAddress}

/-! ### What calls share -/

/-- No number is given to two subscriptions, a name stands for one that is kept current, and rotation
is not disabled. -/
structure Shared.InOrder (s : Shared) : Prop where
  numbered : (s.known.map (·.1)).Nodup
  lt_next : ∀ e ∈ s.known, e.1 < s.subscriptions.next
  live : ∀ key n, s.subscriptions.live.get? key = some n →
    ∃ sub, (n, sub) ∈ s.subscriptions.orders ∧ sub.name = key
  rotating : s.subscriptions.settings.rotationDisabled = false

namespace Shared

theorem InOrder.eq_of_mem (h : s.InOrder) {e e' : Nat × Subscription} (he : e ∈ s.known)
    (he' : e' ∈ s.known) (hnumber : e.1 = e'.1) : e = e' :=
  List.inj_on_of_nodup_map h.numbered he he' hnumber

theorem mem_known_of_subscription? {sub : Subscription} (h : s.subscription? n = some sub) :
    (n, sub) ∈ s.known := by
  obtain ⟨e, hfind, rfl⟩ := Option.map_eq_some_iff.1 h
  have hnumber := List.find?_some hfind
  have hmem := List.mem_of_find?_eq_some hfind
  obtain rfl : e.1 = n := of_decide_eq_true hnumber
  exact hmem

/-- A subscription that is kept current is known by its number. -/
theorem InOrder.subscription?_of_mem_orders (h : s.InOrder) {sub : Subscription}
    (hsub : (n, sub) ∈ s.subscriptions.orders) :
    ∃ sub', s.subscription? n = some sub' ∧ sub'.made = sub := by
  obtain ⟨e, he, heq⟩ := List.mem_map.1 hsub
  obtain ⟨rfl, rfl⟩ := Prod.mk.inj heq
  refine ⟨e.2, ?_, rfl⟩
  unfold subscription?
  cases hfind : s.known.find? fun e' => e'.1 = e.1 with
  | none =>
      have hnone := List.find?_eq_none.1 hfind e (List.mem_append_left _ he)
      exact absurd (decide_eq_true rfl) hnone
  | some e' =>
      have hnumber := List.find?_some hfind
      have heq := h.eq_of_mem (List.mem_of_find?_eq_some hfind) (List.mem_append_left _ he)
        (of_decide_eq_true hnumber)
      rw [heq]
      rfl

theorem InOrder.order_unique (h : s.InOrder) {sub sub' : Subscription}
    (hsub : (n, sub) ∈ s.subscriptions.orders) (hsub' : (n, sub') ∈ s.subscriptions.orders) :
    sub = sub' := by
  obtain ⟨e, he, heq⟩ := List.mem_map.1 hsub
  obtain ⟨e', he', heq'⟩ := List.mem_map.1 hsub'
  obtain ⟨rfl, rfl⟩ := Prod.mk.inj heq
  obtain ⟨hnumber, rfl⟩ := Prod.mk.inj heq'
  rw [h.eq_of_mem (List.mem_append_left _ he) (List.mem_append_left _ he') hnumber.symm]

/-! ### One issuance -/

/-- An issuance changes nothing but the ends of certificates and what was handed over. -/
structure SameRegistry (s s' : Shared) : Prop where
  orders : s'.subscriptions.orders = s.subscriptions.orders
  numbers : s'.known.map (·.1) = s.known.map (·.1)
  live : s'.subscriptions.live = s.subscriptions.live
  next : s'.subscriptions.next = s.subscriptions.next
  settings : s'.subscriptions.settings = s.subscriptions.settings

theorem SameRegistry.refl (s : Shared) : SameRegistry s s := ⟨rfl, rfl, rfl, rfl, rfl⟩

theorem SameRegistry.inOrder (h : SameRegistry s s') (hs : s.InOrder) : s'.InOrder where
  numbered := h.numbers ▸ hs.numbered
  lt_next e he := by
    have hmem : e.1 ∈ s.known.map (·.1) := h.numbers ▸ List.mem_map_of_mem he
    obtain ⟨e', he', heq⟩ := List.mem_map.1 hmem
    rw [h.next, ← heq]
    exact hs.lt_next e' he'
  live key n hn := by
    rw [h.live] at hn
    rw [h.orders]
    exact hs.live key n hn
  rotating := h.settings ▸ hs.rotating

/-- An issuance has nothing to do with the authority and the addresses. -/
theorem frame_issue (tk : Toolkit) (now : Int) (s : Shared) (n : Nat)
    (addresses : List HostAddress) :
    (s.issue tk now n addresses).1.chain = s.chain ∧
      (s.issue tk now n addresses).1.addresses = s.addresses := by
  unfold issue
  split
  · exact ⟨rfl, rfl⟩
  · exact ⟨rfl, rfl⟩

theorem sameRegistry_issue (hs : s.InOrder) (tk : Toolkit) (now : Int) (n : Nat)
    (addresses : List HostAddress) : SameRegistry s (s.issue tk now n addresses).1 := by
  unfold issue
  split
  · exact .refl s
  · next sub hsub =>
      have hknown := mem_known_of_subscription? hsub
      have hmade := sub.made_issue tk now s.gateway.authority s.gateway.subscriptions.settings
        s.gateway.world addresses
      refine ⟨?_, ?_, rfl, rfl, rfl⟩
      · refine (List.map_map ..).trans (List.map_congr_left fun e he => ?_)
        simp only [Function.comp_apply]
        split
        · next hnumber =>
            have heq := hs.eq_of_mem (List.mem_append_left _ he) hknown hnumber
            rw [hmade, heq]
        · rfl
      · let renumbered : Nat × Subscription → Nat × Subscription := fun e =>
          if e.1 = n then (n, (sub.issue tk now s.gateway.authority
            s.gateway.subscriptions.settings s.gateway.world addresses).subscription) else e
        show (s.subscriptions.tracked.map renumbered ++ s.retired.map renumbered).map (·.1) =
          s.known.map (·.1)
        rw [← List.map_append, List.map_map]
        refine List.map_congr_left fun e _ => ?_
        simp only [Function.comp_apply, renumbered]
        split
        · next hnumber => exact hnumber.symm
        · rfl

/-- An issuance that succeeds hands a bundle to the subscription of the number, which is for the
addresses and comes from the authority in force. -/
theorem issue_handed (hs : s.InOrder) (hok : (s.issue tk now n addresses).2 = .ok ())
    {sub : Subscription} (hsub : s.subscription? n = some sub) :
    ∃ ca b, s.gateway.authority.material = some ca ∧ sub.Certified tk ca addresses b ∧
      (s.issue tk now n addresses).1.subscriptions.delivered =
        s.subscriptions.delivered ++ [⟨n, sub.recipient, b⟩] := by
  unfold issue at hok ⊢
  rw [hsub] at hok ⊢
  simp only at hok ⊢
  rcases sub.issue_cases tk now s.gateway.authority s.gateway.subscriptions.settings s.gateway.world
    addresses with ⟨hkeeps, -⟩ | ⟨-, ⟨w', e, hi⟩ | ⟨w', ca, expiry, b, hca, hcertified, hi⟩⟩
  · unfold Subscription.keeps at hkeeps
    have hrotating : s.gateway.subscriptions.settings.rotationDisabled = false := hs.rotating
    rw [hrotating] at hkeeps
    cases hkeeps
  · rw [hi] at hok
    cases hok
  · refine ⟨ca, b, hca, hcertified, ?_⟩
    unfold subscriptions Subscriptions.record
    rw [hi]

/-- An issuance hands nothing to other subscriptions. -/
theorem last?_issue_of_ne (tk : Toolkit) (now : Int) (s : Shared) {k : Nat}
    (addresses : List HostAddress) (h : k ≠ n) :
    (s.issue tk now k addresses).1.subscriptions.last? n = s.subscriptions.last? n := by
  unfold issue
  split
  · rfl
  · next sub _ =>
      let i := sub.issue tk now s.gateway.authority s.gateway.subscriptions.settings s.gateway.world
        addresses
      show (s.subscriptions.record k i).last? n = s.subscriptions.last? n
      cases hdelivered : i.delivered with
      | none =>
          unfold Subscriptions.last? Subscriptions.record
          rw [hdelivered]
      | some b =>
          have happend : (s.subscriptions.record k i).delivered =
              s.subscriptions.delivered ++ [⟨k, i.subscription.recipient, b⟩] := by
            unfold Subscriptions.record
            rw [hdelivered]
          rw [Subscriptions.last?_of_append happend, if_neg h]

end Shared

/-! ### What calls claim -/

/-- What a call brings or takes away is kept current and stands for no name. -/
structure Call.Settled (m : Subscriptions) (c : Call) : Prop where
  claimed : ∀ n, c.claims? = some n →
    (∃ sub, (n, sub) ∈ m.orders) ∧ ∀ key, m.live.get? key ≠ some n
  coming : ∀ key n, c.coming? = some (key, n) → ∃ sub, (n, sub) ∈ m.orders ∧ sub.name = key

/-- What calls share is in order, and what a call brings or takes away belongs to no other call. -/
structure State.InOrder (σ : State) : Prop where
  shared : σ.shared.InOrder
  settled : ∀ (i : Nat) (c : Call), σ.calls[i]? = some c → c.Settled σ.shared.subscriptions
  alone : ∀ (i j : Nat) (c c' : Call) (n : Nat), σ.calls[i]? = some c → σ.calls[j]? = some c' →
    c.claims? = some n → c'.claims? = some n → i = j

theorem State.inOrder_start {g : Gateway} (hg : g.subscriptions.Registered)
    (hrotating : g.subscriptions.settings.rotationDisabled = false) : (State.start g).InOrder where
  shared := by
    have hknown : (State.start g).shared.known = g.subscriptions.tracked := List.append_nil _
    refine ⟨?_, fun e he => ?_, fun key n => (hg.live_iff key n).1, hrotating⟩
    · rw [hknown, ← Subscriptions.map_fst_orders]
      exact hg.numbered
    · exact hg.lt_next e.1 _ (Subscriptions.mem_orders_of_mem (hknown ▸ he))
  settled i c hc := absurd (List.mem_of_getElem? hc) List.not_mem_nil
  alone i _ c _ _ hc _ _ _ := absurd (List.mem_of_getElem? hc) List.not_mem_nil

theorem getElem?_set_eq_some_iff {α : Type} {l : List α} {i j : Nat} {a b c : α}
    (h : l[i]? = some a) :
    (l.set i b)[j]? = some c ↔ j = i ∧ c = b ∨ j ≠ i ∧ l[j]? = some c := by
  have hi : i < l.length := (List.getElem?_eq_some_iff.1 h).1
  by_cases hj : j = i
  · subst hj
    rw [List.getElem?_set_self hi]
    simp [eq_comm]
  · rw [List.getElem?_set_ne (Ne.symm hj)]
    simp [hj]

section
variable {σ : State} {i : Nat} {c c' : Call}

/-- A call takes a step, and the others are left with what they claim. -/
theorem State.InOrder.set (h : σ.InOrder) (hc : σ.calls[i]? = some c) (hs : s'.InOrder)
    (hothers : ∀ (j : Nat) (d : Call), j ≠ i → σ.calls[j]? = some d → d.Settled s'.subscriptions)
    (hown : c'.Settled s'.subscriptions)
    (halone : ∀ (j : Nat) (d : Call) (n : Nat), j ≠ i → σ.calls[j]? = some d →
      c'.claims? = some n → d.claims? ≠ some n) :
    State.InOrder ⟨s', σ.calls.set i c'⟩ where
  shared := hs
  settled j d hd := by
    rcases (getElem?_set_eq_some_iff hc).1 hd with ⟨-, rfl⟩ | ⟨hj, hd⟩
    · exact hown
    · exact hothers j d hj hd
  alone j k d e n hd he hdn hen := by
    rcases (getElem?_set_eq_some_iff hc).1 hd with ⟨hj, rfl⟩ | ⟨hj, hd'⟩
    · rcases (getElem?_set_eq_some_iff hc).1 he with ⟨hk, -⟩ | ⟨hk, he'⟩
      · exact hj.trans hk.symm
      · exact absurd hen (halone k e n hk he' hdn)
    · rcases (getElem?_set_eq_some_iff hc).1 he with ⟨-, rfl⟩ | ⟨hk, he'⟩
      · exact absurd hdn (halone j d n hj hd' hen)
      · exact h.alone j k d e n hd' he' hdn hen

/-- A step that changes no subscription and claims no more than before. -/
theorem State.InOrder.set_of_same (h : σ.InOrder) (hc : σ.calls[i]? = some c)
    (hsame : Shared.SameRegistry σ.shared s')
    (hclaims : ∀ n, c'.claims? = some n → c.claims? = some n)
    (hcoming : ∀ key n, c'.coming? = some (key, n) → c.coming? = some (key, n)) :
    State.InOrder ⟨s', σ.calls.set i c'⟩ := by
  have hsettled : ∀ d : Call, d.Settled σ.shared.subscriptions → d.Settled s'.subscriptions := by
    intro d hd
    refine ⟨fun n hn => ?_, fun key n hn => ?_⟩
    · rw [hsame.orders, hsame.live]
      exact hd.claimed n hn
    · rw [hsame.orders]
      exact hd.coming key n hn
  refine h.set hc (hsame.inOrder h.shared) (fun j d _ hd => hsettled d (h.settled j d hd))
    (hsettled c' ?_) fun j d n hj hd hn hn' => hj (h.alone j i d c n hd hc hn' (hclaims n hn))
  exact ⟨fun n hn => (h.settled i c hc).claimed n (hclaims n hn),
    fun key n hn => (h.settled i c hc).coming key n (hcoming key n hn)⟩

theorem Shared.InOrder.lt_next_of_mem_orders (h : s.InOrder) {sub : Subscription}
    (hsub : (n, sub) ∈ s.subscriptions.orders) : n < s.subscriptions.next := by
  obtain ⟨e, he, heq⟩ := List.mem_map.1 hsub
  obtain ⟨rfl, -⟩ := Prod.mk.inj heq
  exact h.lt_next e (List.mem_append_left _ he)

/-- Another name stands for another subscription. -/
theorem Shared.InOrder.live_injective (h : s.InOrder) {key key' : SubscriptionKey}
    (hkey : s.subscriptions.live.get? key = some n)
    (hkey' : s.subscriptions.live.get? key' = some n) : key = key' := by
  obtain ⟨sub, hsub, rfl⟩ := h.live key n hkey
  obtain ⟨sub', hsub', rfl⟩ := h.live key' n hkey'
  rw [h.order_unique hsub hsub']

/-- A subscription joins those that are kept current. -/
theorem State.InOrder.set_registered (h : σ.InOrder) (hc : σ.calls[i]? = some c) (world : World)
    (key : SubscriptionKey) (privateKey : PrivateKey) (recipient : Recipient) :
    let m := σ.shared.subscriptions
    let subscriptions := m.track (.new key.service key.kind privateKey recipient)
    State.InOrder ⟨{ σ.shared with gateway := { σ.shared.gateway with world, subscriptions } },
      σ.calls.set i (.registered key m.next)⟩ := by
  intro m subscriptions
  have horders : ∀ e, e ∈ subscriptions.orders ↔
      e ∈ m.orders ∨ e = (m.next, .new key.service key.kind privateKey recipient) :=
    fun e => Subscriptions.mem_orders_enter
  have hnew := (horders _).2 (.inr rfl)
  have hfree : ∀ key', m.live.get? key' ≠ some m.next := by
    intro key' hkey'
    obtain ⟨sub, hsub, -⟩ := h.shared.live key' _ hkey'
    exact absurd (h.shared.lt_next_of_mem_orders hsub) (Nat.lt_irrefl _)
  let s' : Shared :=
    { σ.shared with gateway := { σ.shared.gateway with world, subscriptions } }
  have hperm : s'.known.Perm
      ((m.next, .new key.service key.kind privateKey recipient) :: σ.shared.known) := by
    show ((m.tracked ++ [(m.next, Subscription.new key.service key.kind privateKey recipient)]) ++
      σ.shared.retired).Perm _
    rw [List.append_assoc]
    exact List.perm_middle
  refine h.set hc ⟨?_, fun e he => ?_, fun key' n hn => ?_, h.shared.rotating⟩
    (fun j d _ hd => ⟨fun n hn => ?_, fun key' n hn => ?_⟩)
    ⟨fun n hn => ?_, fun key' n hn => ?_⟩ fun j d n _ hd hn hn' => ?_
  · refine (hperm.map _).nodup_iff.2 (List.nodup_cons.2 ⟨fun hmem => ?_, h.shared.numbered⟩)
    obtain ⟨e, he, heq⟩ := List.mem_map.1 hmem
    exact absurd (heq ▸ h.shared.lt_next e he) (Nat.lt_irrefl _)
  · rcases List.mem_cons.1 (hperm.mem_iff.1 he) with rfl | he
    · exact Nat.lt_succ_self _
    · exact Nat.lt_succ_of_lt (h.shared.lt_next e he)
  · obtain ⟨sub, hsub, hname⟩ := h.shared.live key' n hn
    exact ⟨sub, (horders _).2 (.inl hsub), hname⟩
  · obtain ⟨⟨sub, hsub⟩, hlive⟩ := (h.settled j d hd).claimed n hn
    exact ⟨⟨sub, (horders _).2 (.inl hsub)⟩, hlive⟩
  · obtain ⟨sub, hsub, hname⟩ := (h.settled j d hd).coming key' n hn
    exact ⟨sub, (horders _).2 (.inl hsub), hname⟩
  · obtain rfl := Option.some.inj hn
    exact ⟨⟨_, hnew⟩, hfree⟩
  · obtain ⟨rfl, rfl⟩ := Prod.mk.inj (Option.some.inj hn)
    exact ⟨_, hnew, rfl⟩
  · obtain rfl := Option.some.inj hn
    obtain ⟨⟨sub, hsub⟩, -⟩ := (h.settled j d hd).claimed _ hn'
    exact absurd (h.shared.lt_next_of_mem_orders hsub) (Nat.lt_irrefl _)

/-- A subscription no longer stands for its name, and a call is going to stop it. -/
theorem State.InOrder.set_unsubscribed (h : σ.InOrder) (hc : σ.calls[i]? = some c)
    {key : SubscriptionKey} (hn : σ.shared.subscriptions.live.get? key = some n) :
    State.InOrder ⟨σ.shared.put
        { σ.shared.subscriptions with live := σ.shared.subscriptions.live.erase key },
      σ.calls.set i (.leaving n)⟩ := by
  have herase : ∀ key' k, (σ.shared.subscriptions.live.erase key).get? key' = some k →
      key ≠ key' ∧ σ.shared.subscriptions.live.get? key' = some k := by
    intro key' k hk
    rw [OrderedMap.get?_erase] at hk
    split at hk
    · cases hk
    · next hne => exact ⟨hne, hk⟩
  refine h.set hc ⟨h.shared.numbered, h.shared.lt_next,
      fun key' k hk => h.shared.live key' k (herase key' k hk).2, h.shared.rotating⟩
    (fun j d _ hd => ⟨fun k hk => ?_, (h.settled j d hd).coming⟩)
    ⟨fun k hk => ?_, nofun⟩ fun j d k _ hd hk hk' => ?_
  · obtain ⟨hsub, hlive⟩ := (h.settled j d hd).claimed k hk
    exact ⟨hsub, fun key' hkey' => hlive key' (herase key' k hkey').2⟩
  · obtain rfl := Option.some.inj hk
    obtain ⟨sub, hsub, -⟩ := h.shared.live key n hn
    refine ⟨⟨sub, hsub⟩, fun key' hkey' => ?_⟩
    obtain ⟨hne, hkey'⟩ := herase key' n hkey'
    exact hne (h.shared.live_injective hn hkey')
  · obtain rfl := Option.some.inj hk
    exact ((h.settled j d hd).claimed n hk').2 key hn

/-- A subscription stands for its name from now on, and a call is going to stop the one before it. -/
theorem State.InOrder.set_entered (h : σ.InOrder) {key : SubscriptionKey}
    (hc : σ.calls[i]? = some (.entering key n)) :
    State.InOrder ⟨σ.shared.put
        { σ.shared.subscriptions with live := σ.shared.subscriptions.live.insert key n },
      σ.calls.set i (match σ.shared.subscriptions.live.get? key with
        | some old => .leaving old
        | none => .done)⟩ := by
  obtain ⟨hclaimed, hcoming⟩ := h.settled i _ hc
  obtain ⟨⟨sub, hsub⟩, hfree⟩ := hclaimed n rfl
  have hinsert : ∀ key' k, (σ.shared.subscriptions.live.insert key n).get? key' = some k →
      key = key' ∧ n = k ∨ key ≠ key' ∧ σ.shared.subscriptions.live.get? key' = some k := by
    intro key' k hk
    rw [OrderedMap.get?_insert] at hk
    split at hk
    · next heq => exact .inl ⟨heq, Option.some.inj hk⟩
    · next hne => exact .inr ⟨hne, hk⟩
  have hs : (σ.shared.put { σ.shared.subscriptions with
      live := σ.shared.subscriptions.live.insert key n }).InOrder := by
    refine ⟨h.shared.numbered, h.shared.lt_next, fun key' k hk => ?_, h.shared.rotating⟩
    rcases hinsert key' k hk with ⟨rfl, rfl⟩ | ⟨-, hk⟩
    · exact hcoming key n rfl
    · exact h.shared.live key' k hk
  have hothers : ∀ (j : Nat) (d : Call), j ≠ i → σ.calls[j]? = some d → d.Settled
      { σ.shared.subscriptions with live := σ.shared.subscriptions.live.insert key n } := by
    refine fun j d hj hd => ⟨fun k hk => ?_, (h.settled j d hd).coming⟩
    obtain ⟨hsub, hlive⟩ := (h.settled j d hd).claimed k hk
    refine ⟨hsub, fun key' hkey' => ?_⟩
    rcases hinsert key' k hkey' with ⟨-, rfl⟩ | ⟨-, hkey'⟩
    · exact hj (h.alone j i d _ n hd hc hk rfl)
    · exact hlive key' hkey'
  cases hold : σ.shared.subscriptions.live.get? key with
  | none => exact h.set hc hs hothers ⟨nofun, nofun⟩ fun j d k _ _ hk => nomatch hk
  | some old =>
      refine h.set hc hs hothers ⟨fun k hk => ?_, nofun⟩ fun j d k _ hd hk hk' => ?_
      · obtain rfl := Option.some.inj hk
        obtain ⟨sub', hsub', -⟩ := h.shared.live key old hold
        refine ⟨⟨sub', hsub'⟩, fun key' hkey' => ?_⟩
        rcases hinsert key' old hkey' with ⟨-, rfl⟩ | ⟨hne, hkey'⟩
        · exact hfree key hold
        · exact hne (h.shared.live_injective hold hkey')
      · obtain rfl := Option.some.inj hk
        exact ((h.settled j d hd).claimed old hk').2 key hold

/-- A subscription is no longer kept current. -/
theorem State.InOrder.set_retired (h : σ.InOrder) (hc : σ.calls[i]? = some (.leaving n)) :
    State.InOrder ⟨σ.shared.retire n, σ.calls.set i .done⟩ := by
  obtain ⟨-, hfree⟩ := (h.settled i _ hc).claimed n rfl
  have horders : ∀ e, e ∈ (σ.shared.retire n).subscriptions.orders ↔
      e ∈ σ.shared.subscriptions.orders ∧ e.1 ≠ n :=
    fun e => Subscriptions.mem_orders_untrack
  have hperm : (σ.shared.retire n).known.Perm σ.shared.known := by
    let tracked := σ.shared.subscriptions.tracked
    show (tracked.filter (fun e => e.1 ≠ n) ++
      (σ.shared.retired ++ tracked.filter fun e => e.1 = n)).Perm (tracked ++ σ.shared.retired)
    refine (List.perm_append_comm.append_left _).trans ?_
    rw [← List.append_assoc]
    refine List.Perm.append_right _ (List.perm_append_comm.trans ?_)
    simpa using List.filter_append_perm (fun e : Nat × Subscription => decide (e.1 = n)) tracked
  refine h.set hc ⟨?_, fun e he => h.shared.lt_next e (hperm.mem_iff.1 he), fun key k hk => ?_,
    h.shared.rotating⟩ (fun j d hj hd => ⟨fun k hk => ?_, fun key k hk => ?_⟩) ⟨nofun, nofun⟩
    fun j d k _ _ hk => nomatch hk
  · exact (hperm.map _).nodup_iff.2 h.shared.numbered
  · obtain ⟨sub, hsub, hname⟩ := h.shared.live key k hk
    exact ⟨sub, (horders _).2 ⟨hsub, fun heq => hfree key (heq ▸ hk)⟩, hname⟩
  · obtain ⟨⟨sub, hsub⟩, hlive⟩ := (h.settled j d hd).claimed k hk
    refine ⟨⟨sub, (horders _).2 ⟨hsub, ?_⟩⟩, hlive⟩
    rintro rfl
    exact hj (h.alone j i d _ _ hd hc hk rfl)
  · obtain ⟨sub, hsub, hname⟩ := (h.settled j d hd).coming key k hk
    refine ⟨sub, (horders _).2 ⟨hsub, ?_⟩, hname⟩
    rintro rfl
    exact hj (h.alone j i d _ _ hd hc (Call.claims?_of_coming? hk) rfl)

/-! ### Steps -/

/-- What a step of a call changes of the authority, the addresses and the subscriptions. -/
theorem State.InOrder.set_replace (h : σ.InOrder) {request : Request}
    (hc : σ.calls[i]? = some (.asked request)) (o : AuthorityOutcome) :
    State.InOrder ⟨(σ.shared.replace request o).1,
      σ.calls.set i (σ.shared.replace request o).2⟩ := by
  unfold Shared.replace
  split
  · exact h.set_of_same hc (.refl _) (fun n => id) fun key n => id
  · cases o.changed with
    | none => exact h.set_of_same hc ⟨rfl, rfl, rfl, rfl, rfl⟩ nofun nofun
    | some chain => exact h.set_of_same hc ⟨rfl, rfl, rfl, rfl, rfl⟩ nofun nofun

theorem State.InOrder.set_accept (h : σ.InOrder) {request : Request}
    (hc : σ.calls[i]? = some (.asked request)) (tk : Toolkit) (now : Int) :
    State.InOrder ⟨(σ.shared.accept tk now request).1,
      σ.calls.set i (σ.shared.accept tk now request).2⟩ := by
  cases request with
  | subscribe key recipient =>
      unfold Shared.accept
      simp only
      split
      · exact h.set_of_same hc ⟨rfl, rfl, rfl, rfl, rfl⟩ nofun nofun
      · exact h.set_registered hc _ key _ recipient
  | unsubscribe key =>
      unfold Shared.accept
      simp only
      split
      · next n hn => exact h.set_unsubscribed hc hn
      · exact h.set_of_same hc (.refl _) nofun nofun
  | generate keyType => exact h.set_replace hc _
  | install key chain => exact h.set_replace hc _
  | report source addresses =>
      unfold Shared.accept
      simp only
      split
      · exact h.set_of_same hc ⟨rfl, rfl, rfl, rfl, rfl⟩ nofun nofun
      · exact h.set_of_same hc ⟨rfl, rfl, rfl, rfl, rfl⟩ nofun nofun
  | renew millis => exact h.set_of_same hc (.refl _) nofun nofun

/-- Whatever the next step of a call is, it leaves everything in order. -/
theorem State.InOrder.set_step (h : σ.InOrder) (hc : σ.calls[i]? = some c) (tk : Toolkit)
    (now : Int) :
    State.InOrder ⟨(σ.shared.step tk now c).1, σ.calls.set i (σ.shared.step tk now c).2⟩ := by
  cases c with
  | asked request => exact h.set_accept hc tk now
  | registered key n =>
      unfold Shared.step
      simp only
      split
      · exact h.set_of_same hc (.refl _) (fun n => id) fun key n => id
      · exact h.set_of_same hc (.refl _) (fun n => id) fun key n => id
  | readying key n => exact h.set_of_same hc (.refl _) (fun n => id) fun key n => id
  | issuing key n addresses =>
      have hsame := Shared.sameRegistry_issue h.shared tk now n addresses
      refine h.set_of_same hc hsame (fun k hk => ?_) fun key' k hk => ?_
      · unfold Shared.step at hk
        simp only at hk
        split at hk
        · exact hk
        · exact hk
      · unfold Shared.step at hk
        simp only at hk
        split at hk
        · exact hk
        · cases hk
  | entering key n => exact h.set_entered hc
  | leaving n => exact h.set_retired hc
  | reported =>
      unfold Shared.step
      simp only
      split
      · exact h.set_of_same hc (.refl _) nofun nofun
      · exact h.set_of_same hc (.refl _) nofun nofun
  | gathering => exact h.set_of_same hc (.refl _) nofun nofun
  | listing round => exact h.set_of_same hc (.refl _) nofun nofun
  | turning round left =>
      cases left with
      | nil =>
          cases round with
          | rotation => exact h.set_of_same hc ⟨rfl, rfl, rfl, rfl, rfl⟩ nofun nofun
          | servers addresses => exact h.set_of_same hc (.refl _) nofun nofun
          | renewal millis => exact h.set_of_same hc (.refl _) nofun nofun
      | cons n left =>
          unfold Shared.step
          simp only
          split
          · cases round with
            | rotation => exact h.set_of_same hc (.refl _) nofun nofun
            | servers addresses => exact h.set_of_same hc (.refl _) nofun nofun
            | renewal millis => exact h.set_of_same hc (.refl _) nofun nofun
          · exact h.set_of_same hc (.refl _) nofun nofun
  | reading round n left => exact h.set_of_same hc (.refl _) nofun nofun
  | serving round n addresses left =>
      exact h.set_of_same hc (Shared.sameRegistry_issue h.shared tk now n addresses) nofun nofun
  | done => exact h.set_of_same hc (.refl _) nofun nofun

/-- **Order.**  Every event leaves everything in order. -/
theorem State.InOrder.step (h : σ.InOrder) (tk : Toolkit) (event : Event) :
    (step tk σ event).InOrder := by
  cases event with
  | call request =>
      have hcalls : ∀ (j : Nat) (d : Call), (σ.calls ++ [.asked request])[j]? = some d →
          σ.calls[j]? = some d ∨ d = .asked request := by
        intro j d hd
        rw [List.getElem?_append] at hd
        split at hd
        · exact .inl hd
        · exact .inr (List.mem_singleton.1 (List.mem_of_getElem? hd))
      refine ⟨h.shared, fun j d hd => ?_, fun j k d e n hd he hn hn' => ?_⟩
      · rcases hcalls j d hd with hd | rfl
        · exact h.settled j d hd
        · exact ⟨nofun, nofun⟩
      · rcases hcalls j d hd with hd | rfl
        · rcases hcalls k e he with he | rfl
          · exact h.alone j k d e n hd he hn hn'
          · cases hn'
        · cases hn
  | advance now i =>
      cases hc : σ.calls[i]? with
      | none =>
          rw [step_advance_of_none tk hc]
          exact h
      | some c =>
          rw [step_advance tk hc]
          exact h.set_step hc tk now
  | elsewhere world =>
      exact ⟨⟨h.shared.numbered, h.shared.lt_next, h.shared.live, h.shared.rotating⟩, h.settled, h.alone⟩

theorem State.InOrder.run (h : σ.InOrder) (tk : Toolkit) (events : List Event) :
    (run tk σ events).InOrder := by
  induction events generalizing σ with
  | nil => exact h
  | cons event events ih => exact ih (h.step tk event)

end

end Interleaving

end DeviceAccess
