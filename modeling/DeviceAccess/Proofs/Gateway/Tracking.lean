import DeviceAccess.Proofs.Gateway.CertificateRuns

/-!
# What is kept current is what stands for a name

A subscription is tracked before its first certificate is issued and stands for its name only
afterwards; if that certificate cannot be issued, it is taken out again, and the one that stood for
the name before stays (`Subscriptions.subscribe_of_result_error`).  The registry is therefore in order
after every event, whether or not its issuances succeed (`CertificateRun.registered_of_step`), and so
along every run: the tracked subscriptions are those that stand for a name, each of them once
(`CertificateRun.tracked_run`).
-/

namespace DeviceAccess

namespace Subscriptions

variable {tk : Toolkit} {now : Int} {authority : AuthorityStore} {m : Subscriptions} {w : World}
  {key : SubscriptionKey} {recipient : Recipient} {f : Fault}

/-! ### Names and numbers -/

/-- A name stands for the tracked subscription that was made for it. -/
theorem Registered.live_iff_tracked (hm : m.Registered) {n : Nat} :
    m.live.get? key = some n ↔ ∃ s, (n, s) ∈ m.tracked ∧ s.name = key := by
  rw [hm.live_iff]
  constructor
  · rintro ⟨s, hs, hname⟩
    obtain ⟨⟨n, s'⟩, he, heq⟩ := List.mem_map.1 hs
    obtain ⟨rfl, rfl⟩ := Prod.mk.inj heq
    exact ⟨s', he, hname⟩
  · rintro ⟨s, hs, hname⟩
    exact ⟨s.made, mem_orders_of_mem hs, hname⟩

theorem Registered.nodup_numbers (hm : m.Registered) : (m.tracked.map (·.1)).Nodup :=
  map_fst_orders m ▸ hm.numbered

/-- No two tracked subscriptions have the same name. -/
theorem Registered.nodup_names (hm : m.Registered) : (m.tracked.map fun e => e.2.name).Nodup := by
  refine List.Nodup.map_on (fun e he e' he' hname => ?_) (List.Nodup.of_map _ hm.nodup_numbers)
  have hlive := hm.live_iff_tracked.2 ⟨e.2, he, rfl⟩
  rw [hname, hm.live_iff_tracked.2 ⟨e'.2, he', rfl⟩] at hlive
  exact hm.numbered.eq_of_mem he he' (Option.some.inj hlive).symm

/-- The numbers that stand for names are the tracked ones. -/
theorem Registered.values_perm (hm : m.Registered) : m.live.values.Perm (m.tracked.map (·.1)) := by
  have hvalues : m.live.values.Nodup := by
    refine List.Nodup.map_on (fun p hp p' hp' heq => ?_)
      (List.Nodup.of_map _ m.live.increasing.nodup)
    have hlive := OrderedMap.get?_eq_some_iff.2 hp
    rw [heq] at hlive
    exact Prod.ext (hm.live_injective hlive (OrderedMap.get?_eq_some_iff.2 hp')) heq
  refine (List.perm_ext_iff_of_nodup hvalues hm.nodup_numbers).2 fun n => ?_
  rw [OrderedMap.mem_values, List.mem_map]
  constructor
  · rintro ⟨key, hmem⟩
    obtain ⟨s, hs, -⟩ := hm.live_iff_tracked.1 (OrderedMap.get?_eq_some_iff.2 hmem)
    exact ⟨(n, s), hs, rfl⟩
  · rintro ⟨e, he, rfl⟩
    exact ⟨e.2.name, OrderedMap.get?_eq_some_iff.1 (hm.live_iff_tracked.2 ⟨e.2, he, rfl⟩)⟩

/-! ### Subscribing -/

/-- A number that was given out and taken back is used up, and nothing else changed. -/
theorem untrack_track (hm : m.Registered) (s : Subscription) :
    (m.track s).untrack m.next = { m with next := m.next + 1 } := by
  have hbefore : m.tracked.filter (fun e => e.1 ≠ m.next) = m.tracked := by
    refine List.filter_eq_self.2 fun e he => ?_
    simpa using Nat.ne_of_lt (hm.lt_next e.1 _ (mem_orders_of_mem he))
  unfold track untrack
  simp only [List.filter_append, hbefore]
  simp

/-- Numbers may be left out. -/
theorem Registered.later (hm : m.Registered) {next : Nat} (hnext : m.next ≤ next) :
    { m with next }.Registered where
  numbered := hm.numbered
  lt_next n s hs := Nat.lt_of_lt_of_le (hm.lt_next n s hs) hnext
  live_iff := hm.live_iff
  delivered_lt d hd := Nat.lt_of_lt_of_le (hm.delivered_lt d hd) hnext
  holds_iff := hm.holds_iff

/-- To subscribe in vain uses up a number at most. -/
theorem subscribe_of_result_error (hm : m.Registered)
    (h : (subscribe tk now authority m w key recipient).2.2 = .error f) :
    ∃ next, m.next ≤ next ∧
      (subscribe tk now authority m w key recipient).1 = { m with next } := by
  unfold subscribe at h ⊢
  rcases hdraw : w.draw (tk.newKey m.settings.keyType) with ⟨w', f' | privateKey⟩
  · exact ⟨m.next, Nat.le_refl _, rfl⟩
  · rw [hdraw] at h
    simp only at h ⊢
    generalize hs : Subscription.new key.service key.kind privateKey recipient = s at h ⊢
    cases hready : authority.isReady with
    | false =>
        rw [hready, if_neg Bool.false_ne_true] at h
        cases h
    | true =>
        rw [hready, if_pos rfl] at h
        rw [if_pos rfl]
        have htrack : (m.track s).Numbered := numbered_enter hm s
        have hmem : (m.next, s) ∈ (m.track s).tracked :=
          List.mem_append_right _ (List.mem_singleton_self _)
        obtain ⟨w'', f', hissue⟩ | ⟨m', w'', called, hissue, -⟩ :=
          issueTo_cases tk now authority w' htrack hmem
        · rw [hissue]
          exact ⟨m.next + 1, Nat.le_succ _, untrack_track hm s⟩
        · rw [hissue] at h
          cases h

/-- To subscribe with success is to join and perhaps to be handed a bundle. -/
theorem subscribe_of_result_ok (hm : m.Registered)
    (h : (subscribe tk now authority m w key recipient).2.2 = .ok ()) :
    ∃ s called, s.name = key ∧ s.recipient = recipient ∧ s.expiry = none ∧
      Handed tk authority (m.join s) (subscribe tk now authority m w key recipient).1 called := by
  rcases hdraw : w.draw (tk.newKey m.settings.keyType) with ⟨w', f' | privateKey⟩
  · rw [subscribe_of_error now authority recipient hdraw] at h
    cases h
  · obtain ⟨called, hhanded, -⟩ := subscribe_handed hm hdraw h
    exact ⟨_, called, rfl, rfl, rfl, hhanded⟩

/-- The registry is in order after every attempt to subscribe. -/
theorem registered_subscribe (hm : m.Registered) (tk : Toolkit) (now : Int)
    (authority : AuthorityStore) (w : World) (key : SubscriptionKey) (recipient : Recipient) :
    (subscribe tk now authority m w key recipient).1.Registered := by
  cases hresult : (subscribe tk now authority m w key recipient).2.2 with
  | error f =>
      obtain ⟨next, hnext, heq⟩ := subscribe_of_result_error hm hresult
      rw [heq]
      exact hm.later hnext
  | ok =>
      obtain ⟨s, called, -, -, hexpiry, hhanded⟩ := subscribe_of_result_ok hm hresult
      exact hhanded.registered (registered_join hm hexpiry)

end Subscriptions

namespace CertificateRun

variable {tk : Toolkit} {g : Gateway} {event : Event} {events : List Event}

/-! ### Events and runs -/

/-- Whatever else happens than that somebody subscribes, bundles may be handed over to those who are
subscribed already. -/
theorem exists_handed_step (tk : Toolkit) (hm : g.subscriptions.Registered)
    (hother : ∀ now key recipient, event ≠ .subscribe now key recipient) :
    ∃ authority called, Subscriptions.Handed tk authority (arranged tk g event)
      (step tk g event).subscriptions called := by
  have hsettled (now : Int) (o : AuthorityOutcome) : ∃ authority called,
      Subscriptions.Handed tk authority g.subscriptions (g.settle tk now o).1.subscriptions
        called := by
    obtain ⟨-, ⟨-, hsame⟩ | ⟨-, hreissue⟩⟩ := settle_cases tk now g o
    · rw [hsame]
      exact ⟨o.store, [], .refl _⟩
    · rw [hreissue]
      exact ⟨o.store, Subscriptions.exists_handed_reissue tk now o.store hm.numbered _ o.world⟩
  cases event with
  | subscribe now key recipient => exact absurd rfl (hother now key recipient)
  | unsubscribe key => exact ⟨g.authority, [], .refl _⟩
  | generate now keyType => exact hsettled now _
  | install now key chain => exact hsettled now _
  | recordAddresses now source addresses =>
      have harranged : (arranged tk g (.recordAddresses now source addresses)).Registered :=
        registered_arranged hm _
      unfold step Gateway.recordAddresses Subscriptions.recordAddresses
      simp only
      split
      · exact ⟨g.authority, [], .refl _⟩
      · exact ⟨g.authority,
          Subscriptions.exists_handed_reissue tk now g.authority harranged.numbered _ g.world⟩
  | configure settings => exact ⟨g.authority, [], .refl _⟩
  | elsewhere world => exact ⟨g.authority, [], .refl _⟩

/-- An event leaves the registry in order, whether or not its issuances succeed. -/
theorem registered_of_step (hm : g.subscriptions.Registered) (event : Event) :
    (step tk g event).subscriptions.Registered := by
  by_cases hother : ∀ now key recipient, event ≠ .subscribe now key recipient
  · obtain ⟨authority, called, hhanded⟩ := exists_handed_step tk hm hother
    exact hhanded.registered (registered_arranged hm event)
  · push Not at hother
    obtain ⟨now, key, recipient, rfl⟩ := hother
    exact Subscriptions.registered_subscribe hm tk now g.authority g.world key recipient

theorem registered_of_run (hm : g.subscriptions.Registered) (events : List Event) :
    (run tk g events).subscriptions.Registered := by
  induction events generalizing g with
  | nil => exact hm
  | cons event events ih => exact ih (registered_of_step hm event)

/-- Only to subscribe and to give up a subscription changes which subscriptions there are. -/
theorem frame_step (hm : g.subscriptions.Registered)
    (hsubscribe : ∀ now key recipient, event ≠ .subscribe now key recipient)
    (hunsubscribe : ∀ key, event ≠ .unsubscribe key) :
    (step tk g event).subscriptions.live = g.subscriptions.live ∧
      (step tk g event).subscriptions.orders = g.subscriptions.orders := by
  obtain ⟨authority, called, hhanded⟩ := exists_handed_step tk hm hsubscribe
  rw [hhanded.live, hhanded.orders]
  cases event with
  | subscribe now key recipient => exact absurd rfl (hsubscribe now key recipient)
  | unsubscribe key => exact absurd rfl (hunsubscribe key)
  | generate now keyType => exact ⟨rfl, rfl⟩
  | install now key chain => exact ⟨rfl, rfl⟩
  | recordAddresses now source addresses => exact ⟨rfl, rfl⟩
  | configure settings => exact ⟨rfl, rfl⟩
  | elsewhere world => exact ⟨rfl, rfl⟩

/-- **What is tracked is what stands for a name.**  After any run from a new gateway, also if keys
cannot be drawn and issuances fail:

* The tracked subscriptions are exactly those that stand for a name, each of them once, and there is
  one at most for a service and a kind.
* To subscribe in vain leaves both as they were and hands nothing over, so the subscription that
  stood for the name stays; to subscribe with success lets the new one stand for its name and changes
  no other name.
* To give up a name takes its subscription out, and no other event changes which ones there are. -/
theorem tracked_run (tk : Toolkit) (world : World) (workDir : Path) (settings : LeafSettings)
    (events : List Event) :
    let g := run tk (.new world workDir settings) events
    let m := g.subscriptions
    (m.live.values.Perm (m.tracked.map (·.1)) ∧ (m.tracked.map (·.1)).Nodup ∧
      (m.tracked.map fun e => e.2.name).Nodup ∧
      ∀ key n, m.live.get? key = some n ↔ ∃ s, (n, s) ∈ m.tracked ∧ s.name = key) ∧
    (∀ now key recipient,
      let r := g.subscribe tk now key recipient
      let m' := r.1.subscriptions
      (∀ f, r.2 = .error f →
        m'.live = m.live ∧ m'.tracked = m.tracked ∧ m'.delivered = m.delivered) ∧
      (r.2 = .ok () → ∀ key', m'.live.get? key' = if key = key' then some m.next else m.live.get? key')) ∧
    (∀ key,
      ((g.unsubscribe key).2 = true ↔ ∃ n, m.live.get? key = some n) ∧
      ∀ key', (g.unsubscribe key).1.subscriptions.live.get? key' =
        if key = key' then none else m.live.get? key') ∧
    ∀ event, (∀ now key recipient, event ≠ .subscribe now key recipient) →
      (∀ key, event ≠ .unsubscribe key) →
        (step tk g event).subscriptions.live = m.live ∧
          (step tk g event).subscriptions.orders = m.orders := by
  intro g m
  have hm : m.Registered := registered_of_run (Subscriptions.registered_empty settings) events
  refine ⟨⟨hm.values_perm, hm.nodup_numbers, hm.nodup_names, fun key n => hm.live_iff_tracked⟩,
    fun now key recipient => ⟨fun f hresult => ?_, fun hresult key' => ?_⟩,
    fun key => ⟨?_, m.live_unsubscribe key⟩, fun event => frame_step hm⟩
  · obtain ⟨next, -, heq⟩ := Subscriptions.subscribe_of_result_error hm hresult
    have hsubscriptions : (g.subscribe tk now key recipient).1.subscriptions = { m with next } := heq
    rw [hsubscriptions]
    exact ⟨rfl, rfl, rfl⟩
  · obtain ⟨s, called, rfl, -, -, hhanded⟩ := Subscriptions.subscribe_of_result_ok hm hresult
    exact (congrArg (·.get? key') hhanded.live).trans (m.live_join s key')
  · show (m.unsubscribe key).2 = true ↔ _
    unfold Subscriptions.unsubscribe
    cases m.live.get? key with
    | none => simp
    | some n => simp

/-- A toolkit that issues nothing for the authority `mute`. -/
def muteToolkit : Toolkit :=
  { plainToolkit with
    issue := fun request key signing ca now =>
      if signing = "mute" then pure (.error (.internal "mute"))
      else plainToolkit.issue request key signing ca now }

/-- The server has a subscription when the authority that issues nothing is imported; that it
subscribes again is in vain, and the subscription stays. -/
theorem tracked_run_mute :
    let g := run muteToolkit (.new emptyWorld ⟨"/work"⟩ .standard)
      (brokerStart ++ [.install 0 "key" ["mute"]])
    let r := g.subscribe muteToolkit 0 broker (.caller "second")
    r.2 = .error (.internal "mute") ∧ r.1.subscriptions.live.get? broker = some 0 ∧
      ∃ s, (0, s) ∈ r.1.subscriptions.tracked ∧ s.name = broker := by
  intro g r
  have hresult : r.2 = .error (.internal "mute") ∧ g.subscriptions.live.get? broker = some 0 := by
    decide +kernel
  obtain ⟨⟨-, -, -, hlive⟩, hsubscribe, -⟩ := tracked_run muteToolkit emptyWorld ⟨"/work"⟩ .standard
    (brokerStart ++ [.install 0 "key" ["mute"]])
  obtain ⟨hsame, htracked, -⟩ := (hsubscribe 0 broker (.caller "second")).1 _ hresult.1
  refine ⟨hresult.1, ?_, ?_⟩
  · rw [hsame]
    exact hresult.2
  · rw [htracked]
    exact (hlive broker 0).1 hresult.2

end CertificateRun

end DeviceAccess
