import Mathlib.Data.List.Induction
import DeviceAccess.Proofs.Gateway.Certificates

/-!
# Who is handed certificates

Runs of a gateway in which no issuance fails, described by induction on their events
(`CertificateRun.calls_run`): whom each event calls, which subscriptions are live, that one that was
replaced or given up is never called again, where recipients come from, and that without disabled
rotation every live subscription's last bundle is up to date.
-/

namespace DeviceAccess

namespace CertificateRun

variable {tk : Toolkit} {g : Gateway} {event : Event} {events : List Event} {n : Nat}

/-! ### Runs -/

theorem run_append (tk : Toolkit) (g : Gateway) (events more : List Event) :
    run tk g (events ++ more) = run tk (run tk g events) more :=
  List.foldl_append

theorem noFailures_append {more : List Event} :
    NoFailures tk g (events ++ more) ↔
      NoFailures tk g events ∧ NoFailures tk (run tk g events) more := by
  induction events generalizing g with
  | nil => exact (and_iff_right trivial).symm
  | cons event events ih =>
      show Succeeds tk g event ∧ NoFailures tk (step tk g event) (events ++ more) ↔
        (Succeeds tk g event ∧ NoFailures tk (step tk g event) events) ∧ _
      rw [ih, and_assoc]
      rfl

theorem registered_run (hm : g.subscriptions.Registered) (h : NoFailures tk g events) :
    (run tk g events).subscriptions.Registered := by
  induction events generalizing g with
  | nil => exact hm
  | cons event events ih => exact ih (registered_step hm h.1) h.2

/-- A number that is used up and not tracked is never called again. -/
theorem not_called_run (hm : g.subscriptions.Registered) (h : NoFailures tk g events)
    (hused : n < g.subscriptions.next) (hgone : ∀ s, (n, s) ∉ g.subscriptions.orders) :
    ∃ later, (run tk g events).subscriptions.delivered = g.subscriptions.delivered ++ later ∧
      n ∉ later.map (·.number) := by
  induction events generalizing g with
  | nil => exact ⟨[], (List.append_nil _).symm, List.not_mem_nil⟩
  | cons event events ih =>
      obtain ⟨called, hhanded, -⟩ := step_handed hm h.1
      have hnext := (frame_arranged tk g event).2.1
      have hgone' : ∀ s, (n, s) ∉ (arranged tk g event).orders := by
        intro s hs
        rcases mem_orders_arranged hm hs with hs | ⟨-, heq, -⟩
        · exact hgone s hs
        · exact absurd hused (heq ▸ Nat.lt_irrefl _)
      obtain ⟨later, hlater, hn⟩ := ih (registered_step hm h.1) h.2
        (hhanded.next ▸ Nat.lt_of_lt_of_le hused hnext) (hhanded.orders ▸ hgone')
      refine ⟨called ++ later, ?_, ?_⟩
      · show (run tk (step tk g event) events).subscriptions.delivered = _
        rw [hlater, delivered_step hhanded, List.append_assoc]
      · rw [List.map_append, List.mem_append]
        exact not_or_intro (hhanded.not_mem_called hgone') hn

/-- Addresses and settings are those of their own events. -/
theorem frame_run (hm : g.subscriptions.Registered) (h : NoFailures tk g events) :
    (run tk g events).subscriptions.reachability =
        events.foldl reported g.subscriptions.reachability ∧
      (run tk g events).subscriptions.settings =
        events.foldl configured g.subscriptions.settings := by
  induction events generalizing g with
  | nil => exact ⟨rfl, rfl⟩
  | cons event events ih =>
      obtain ⟨called, hhanded, -⟩ := step_handed hm h.1
      obtain ⟨-, -, hreachability, hsettings⟩ := frame_arranged tk g event
      rw [List.foldl_cons, List.foldl_cons, ← hreachability, ← hsettings, ← hhanded.reachability,
        ← hhanded.settings]
      exact ih (registered_step hm h.1) h.2

/-- What an event ends is used up and not tracked afterwards. -/
theorem gone_of_ends (hm : g.subscriptions.Registered) (hs : Succeeds tk g event)
    {key : SubscriptionKey} (hlive : g.subscriptions.live.get? key = some n)
    (hends : Ends tk g event key) :
    n < (step tk g event).subscriptions.next ∧
      ∀ s, (n, s) ∉ (step tk g event).subscriptions.orders := by
  obtain ⟨called, hhanded, -⟩ := step_handed hm hs
  have hused : n < g.subscriptions.next := by
    obtain ⟨s, hs, -⟩ := (hm.live_iff key n).1 hlive
    exact hm.lt_next n s hs
  rw [hhanded.next, hhanded.orders]
  refine ⟨Nat.lt_of_lt_of_le hused (frame_arranged tk g event).2.1, fun s hs => ?_⟩
  cases event with
  | subscribe now key recipient =>
      obtain ⟨hdrawn, rfl⟩ := hends
      rcases arranged_subscribe_cases tk g now key recipient with
        ⟨hnot, -⟩ | ⟨-, s', rfl, -, -, harranged⟩
      · exact Bool.false_ne_true (hnot.symm.trans hdrawn)
      · rcases (Subscriptions.mem_orders_join hm).1 (harranged ▸ hs) with ⟨-, hne⟩ | heq
        · exact hne hlive
        · exact absurd hused ((Prod.mk.inj heq).1 ▸ Nat.lt_irrefl _)
  | unsubscribe key =>
      obtain rfl := hends
      exact (Subscriptions.mem_orders_unsubscribe.1 hs).2 hlive
  | recordAddresses now source addresses => exact hends.elim
  | configure settings => exact hends.elim
  | generate now keyType => exact hends.elim
  | install now key chain => exact hends.elim
  | elsewhere world => exact hends.elim

/-- A subscription that an event ends is not called by this event or any later one. -/
theorem not_called_of_ends (hm : g.subscriptions.Registered)
    (h : NoFailures tk g (event :: events)) {key : SubscriptionKey}
    (hlive : g.subscriptions.live.get? key = some n) (hends : Ends tk g event key) :
    ∃ later, (run tk g (event :: events)).subscriptions.delivered =
      g.subscriptions.delivered ++ later ∧ n ∉ later.map (·.number) := by
  obtain ⟨called, hhanded, -⟩ := step_handed hm h.1
  obtain ⟨hused, hgone⟩ := gone_of_ends hm h.1 hlive hends
  obtain ⟨later, hlater, hn⟩ := not_called_run (registered_step hm h.1) h.2 hused hgone
  refine ⟨called ++ later, ?_, ?_⟩
  · refine hlater.trans ?_
    rw [delivered_step hhanded, List.append_assoc]
  · rw [List.map_append, List.mem_append]
    exact not_or_intro (hhanded.not_mem_called (hhanded.orders ▸ hgone)) hn

/-! ### Which subscriptions are live -/

/-- A name goes to the subscription that is made for it and stays with it until that ends. -/
theorem live_arranged_iff {key : SubscriptionKey} :
    (arranged tk g event).live.get? key = some n ↔
      (g.subscriptions.live.get? key = some n ∧ ¬Ends tk g event key) ∨
        ∃ recipient, Makes tk g event n key recipient := by
  cases event with
  | subscribe now key' recipient =>
      rcases arranged_subscribe_cases tk g now key' recipient with
        ⟨hnot, harranged⟩ | ⟨hdrawn, s, rfl, rfl, -, harranged⟩
      · rw [harranged]
        simp [Ends, Makes, hnot]
      · rw [harranged, Subscriptions.live_join]
        unfold Ends Makes
        simp only [hdrawn, true_and, Event.subscribe.injEq]
        split
        · next hname =>
            subst hname
            simp [eq_comm]
        · next hname =>
            simp [hname]
  | unsubscribe key' =>
      show (g.subscriptions.unsubscribe key').1.live.get? key = some n ↔ _
      rw [Subscriptions.live_unsubscribe]
      split
      · next hname => simp [Ends, Makes, hname]
      · next hname => simp [Ends, Makes, hname]
  | generate now keyType => simp [arranged, Ends, Makes]
  | install now key chain => simp [arranged, Ends, Makes]
  | recordAddresses now source addresses => simp [arranged, Ends, Makes]
  | configure settings => simp [arranged, Ends, Makes, Subscriptions.configure]
  | elsewhere world => simp [arranged, Ends, Makes]

/-- In a run the subscription of number `n` was made for a name, and nothing has ended it since. -/
def StandsFor (tk : Toolkit) (g : Gateway) (events : List Event) (n : Nat)
    (key : SubscriptionKey) : Prop :=
  ∃ before event more recipient, events = before ++ event :: more ∧
    Makes tk (run tk g before) event n key recipient ∧
    ∀ mid event' rest, more = mid ++ event' :: rest →
      ¬Ends tk (run tk g (before ++ event :: mid)) event' key

theorem standsFor_concat_iff {key : SubscriptionKey} :
    StandsFor tk g (events ++ [event]) n key ↔
      (StandsFor tk g events n key ∧ ¬Ends tk (run tk g events) event key) ∨
        ∃ recipient, Makes tk (run tk g events) event n key recipient := by
  constructor
  · rintro ⟨before, event', more, recipient, hevents, hmakes, hends⟩
    rcases List.eq_nil_or_concat more with rfl | ⟨more, last, rfl⟩
    · obtain ⟨rfl, heq⟩ := List.append_inj' hevents rfl
      obtain rfl := List.singleton_inj.1 heq
      exact .inr ⟨recipient, hmakes⟩
    · rw [List.concat_eq_append] at hevents hends
      rw [← List.cons_append, ← List.append_assoc] at hevents
      obtain ⟨rfl, heq⟩ := List.append_inj' hevents rfl
      obtain rfl := List.singleton_inj.1 heq
      refine .inl ⟨⟨before, event', more, recipient, rfl, hmakes, ?_⟩, hends more event [] rfl⟩
      rintro mid event₂ rest rfl
      exact hends mid event₂ (rest ++ [event]) (by simp)
  · rintro (⟨⟨before, event', more, recipient, rfl, hmakes, hends⟩, hlast⟩ | ⟨recipient, hmakes⟩)
    · refine ⟨before, event', more ++ [event], recipient, by simp, hmakes, ?_⟩
      intro mid event₂ rest hmore
      rcases List.eq_nil_or_concat rest with rfl | ⟨rest, last, rfl⟩
      · obtain ⟨rfl, heq⟩ := List.append_inj' hmore rfl
        obtain rfl := List.singleton_inj.1 heq
        exact hlast
      · rw [List.concat_eq_append, ← List.cons_append, ← List.append_assoc] at hmore
        obtain ⟨rfl, -⟩ := List.append_inj' hmore rfl
        exact hends mid event₂ rest rfl
    · refine ⟨events, event, [], recipient, rfl, hmakes, fun mid event' rest hnil => ?_⟩
      exact absurd hnil.symm (List.append_ne_nil_of_right_ne_nil _ (List.cons_ne_nil _ _))

/-- The live subscriptions are those that were made and that nothing has ended. -/
theorem live_run_iff (hm : g.subscriptions.Registered) (hnone : g.subscriptions.live = ∅)
    (h : NoFailures tk g events) {key : SubscriptionKey} :
    (run tk g events).subscriptions.live.get? key = some n ↔ StandsFor tk g events n key := by
  induction events using List.reverseRecOn with
  | nil =>
      show g.subscriptions.live.get? key = some n ↔ _
      rw [hnone]
      refine ⟨nofun, ?_⟩
      rintro ⟨before, event, more, recipient, hnil, -⟩
      exact absurd hnil.symm (List.append_ne_nil_of_right_ne_nil _ (List.cons_ne_nil _ _))
  | append_singleton events event ih =>
      obtain ⟨hevents, hs, -⟩ := noFailures_append.1 h
      have hreg := registered_run hm hevents
      obtain ⟨called, hhanded, -⟩ := step_handed hreg hs
      rw [standsFor_concat_iff, ← ih hevents, ← live_arranged_iff, ← hhanded.live, run_append]
      rfl

/-! ### Where recipients come from -/

/-- A subscription of number `n` was made in the run, for a name and a recipient. -/
def MadeIn (tk : Toolkit) (g : Gateway) (events : List Event) (n : Nat) (key : SubscriptionKey)
    (recipient : Recipient) : Prop :=
  ∃ before event after, events = before ++ event :: after ∧
    Makes tk (run tk g before) event n key recipient

theorem MadeIn.concat {key : SubscriptionKey} {recipient : Recipient}
    (h : MadeIn tk g events n key recipient) (event : Event) :
    MadeIn tk g (events ++ [event]) n key recipient := by
  obtain ⟨before, event', after, rfl, hmakes⟩ := h
  exact ⟨before, event', after ++ [event], by simp, hmakes⟩

/-- Every tracked subscription was made in the run, for its own name and recipient, and every bundle
went to the recipient of a subscription that was made in the run. -/
theorem madeIn_run (hm : g.subscriptions.Registered) (hnone : g.subscriptions.orders = [])
    (hfirst : g.subscriptions.delivered = []) (h : NoFailures tk g events) :
    (∀ n s, (n, s) ∈ (run tk g events).subscriptions.orders →
        MadeIn tk g events n s.name s.recipient) ∧
      ∀ d ∈ (run tk g events).subscriptions.delivered,
        ∃ key, MadeIn tk g events d.number key d.recipient := by
  induction events using List.reverseRecOn with
  | nil =>
      constructor
      · intro n s hs
        exact absurd (hnone ▸ hs : (n, s) ∈ []) List.not_mem_nil
      · intro d hd
        exact absurd (hfirst ▸ hd : d ∈ []) List.not_mem_nil
  | append_singleton events event ih =>
      obtain ⟨hevents, hs, -⟩ := noFailures_append.1 h
      obtain ⟨ihorders, ihdelivered⟩ := ih hevents
      have hreg := registered_run hm hevents
      obtain ⟨called, hhanded, -⟩ := step_handed hreg hs
      have hmade : ∀ n s, (n, s) ∈ (arranged tk (run tk g events) event).orders →
          MadeIn tk g (events ++ [event]) n s.name s.recipient := by
        intro n s hs
        rcases mem_orders_arranged hreg hs with hs | hmakes
        · exact (ihorders n s hs).concat event
        · exact ⟨events, event, [], rfl, hmakes⟩
      rw [run_append]
      constructor
      · intro n s hs
        exact hmade n s (hhanded.orders ▸ hs)
      · intro d hd
        have hd' : d ∈ (run tk g events).subscriptions.delivered ++ called :=
          delivered_step hhanded ▸ hd
        rcases List.mem_append.1 hd' with hd | hd
        · obtain ⟨key, hmadeIn⟩ := ihdelivered d hd
          exact ⟨key, hmadeIn.concat event⟩
        · obtain ⟨ca, s, -, hs, hrecipient, -⟩ := hhanded.bundles d hd
          exact ⟨s.name, hrecipient ▸ hmade d.number s hs⟩

/-! ### The last bundles -/

/-- Rotation is not disabled by any event. -/
def KeepsRotating (events : List Event) : Prop :=
  ∀ settings, .configure settings ∈ events → settings.rotationDisabled = false

theorem settings_step (hm : g.subscriptions.Registered) (hs : Succeeds tk g event)
    (hrotating : g.subscriptions.settings.rotationDisabled = false)
    (hevent : KeepsRotating [event]) :
    (step tk g event).subscriptions.settings.rotationDisabled = false := by
  obtain ⟨called, hhanded, -⟩ := step_handed hm hs
  rw [hhanded.settings, (frame_arranged tk g event).2.2.2]
  cases event with
  | configure settings => exact hevent settings (List.mem_singleton_self _)
  | subscribe now key recipient => exact hrotating
  | unsubscribe key => exact hrotating
  | recordAddresses now source addresses => exact hrotating
  | generate now keyType => exact hrotating
  | install now key chain => exact hrotating
  | elsewhere world => exact hrotating

/-- The last bundle of every tracked subscription is up to date. -/
def AllCurrent (tk : Toolkit) (g : Gateway) : Prop :=
  ∀ n s, (n, s) ∈ g.subscriptions.orders → g.subscriptions.IsCurrent tk g.authority.chain n s

/-- Whom an event does not call is up to date all the same, if rotation is not disabled. -/
theorem isCurrent_arranged (hm : g.subscriptions.Registered)
    (hrotating : g.subscriptions.settings.rotationDisabled = false) (hcurrent : AllCurrent tk g)
    {s : Subscription} (hs : (n, s) ∈ (arranged tk g event).orders) (hcalls : ¬Calls tk g event n) :
    (arranged tk g event).IsCurrent tk (step tk g event).authority.chain n s := by
  have hkept : ¬g.subscriptions.Kept n := fun h => Bool.false_ne_true (hrotating.symm.trans h.1)
  have hsameChain : (step tk g event).authority.chain = g.authority.chain →
      (n, s) ∈ g.subscriptions.orders →
      g.subscriptions.IsCurrent tk (step tk g event).authority.chain n s := by
    intro hchain hs
    rw [hchain]
    exact hcurrent n s hs
  cases event with
  | subscribe now key recipient =>
      rcases mem_orders_arranged hm hs with hold | ⟨hdrawn, heq, -⟩
      · have hframe := frame_arranged tk g (.subscribe now key recipient)
        exact (hcurrent n s hold).congr hframe.1 (congrArg Reachability.all hframe.2.2.1)
      · intro hchain
        exact absurd ⟨hdrawn, AuthorityStore.isReady_iff_chain_ne_nil.2 hchain, heq⟩ hcalls
  | unsubscribe key =>
      have hframe := frame_arranged tk g (.unsubscribe key)
      refine (hcurrent n s (Subscriptions.mem_orders_unsubscribe.1 hs).1).congr hframe.1 ?_
      exact congrArg Reachability.all hframe.2.2.1
  | generate now keyType =>
      refine hsameChain (by_contra fun hne => hcalls ⟨hne, ⟨s.name, ?_⟩, hkept⟩) hs
      exact (hm.live_iff s.name n).2 ⟨s, hs, rfl⟩
  | install now key chain =>
      refine hsameChain (by_contra fun hne => hcalls ⟨hne, ⟨s.name, ?_⟩, hkept⟩) hs
      exact (hm.live_iff s.name n).2 ⟨s, hs, rfl⟩
  | recordAddresses now source addresses =>
      intro hchain
      have hready := AuthorityStore.isReady_iff_chain_ne_nil.2 hchain
      by_cases hsame : (g.subscriptions.reachability.record source addresses).1.all =
          g.subscriptions.reachability.all
      · exact (hcurrent n s hs).congr rfl hsame hchain
      · cases hkind : s.kind with
        | server =>
            refine absurd ⟨hready, hsame, ⟨s.name, ?_, hkind⟩, hkept⟩ hcalls
            exact (hm.live_iff s.name n).2 ⟨s, hs, rfl⟩
        | client => exact (hcurrent n s hs).of_client hkind _ hchain
  | configure settings => exact (hcurrent n s hs).congr rfl rfl
  | elsewhere world => exact hcurrent n s hs

theorem allCurrent_step (hm : g.subscriptions.Registered) (hs : Succeeds tk g event)
    (hrotating : g.subscriptions.settings.rotationDisabled = false) (hcurrent : AllCurrent tk g) :
    AllCurrent tk (step tk g event) := by
  obtain ⟨called, hhanded, -, hnumbers⟩ := step_handed hm hs
  intro n s hs'
  refine hhanded.isCurrent (registered_arranged hm event) (fun n s hs' hn => ?_) hs'
  exact isCurrent_arranged hm hrotating hcurrent hs' fun hcalls => hn ((hnumbers n).2 hcalls)

/-- Without disabled rotation everybody stays up to date. -/
theorem allCurrent_run (hm : g.subscriptions.Registered) (h : NoFailures tk g events)
    (hrotating : g.subscriptions.settings.rotationDisabled = false)
    (hevents : KeepsRotating events) (hcurrent : AllCurrent tk g) :
    AllCurrent tk (run tk g events) := by
  induction events generalizing g with
  | nil => exact hcurrent
  | cons event events ih =>
      refine ih (registered_step hm h.1) h.2 ?_ ?_ (allCurrent_step hm h.1 hrotating hcurrent)
      · refine settings_step hm h.1 hrotating fun settings hsettings => ?_
        exact hevents settings (List.mem_singleton.1 hsettings ▸ List.mem_cons_self)
      · exact fun settings hsettings => hevents settings (List.mem_cons_of_mem _ hsettings)

/-- **Who is handed certificates.**  In a run from a new gateway in which no issuance fails:

* Every event calls exactly the subscriptions that `Calls` names, each of them once.
* At all times the live subscriptions are those that were made and that no event has ended, and the
  addresses and the settings are those of the reports and the settings so far.
* A subscription that an event ends is not called by this event or any later one.
* Every bundle goes to the recipient that its subscription was made for.
* If rotation was never disabled and there is an authority, the last bundle of every live subscription
  carries the chain in force, and its certificate was issued with that chain's signing certificate for
  the names that are wanted now: for a server the addresses of the gateway and `localhost`, without the
  empty name and without repetition, for a client none. -/
theorem calls_run (tk : Toolkit) (world : World) (workDir : Path) (settings : LeafSettings)
    (events : List Event) (h : NoFailures tk (.new world workDir settings) events) :
    let after := run tk (.new world workDir settings)
    let delivered := fun events => (after events).subscriptions.delivered
    let g := after events
    let m := g.subscriptions
    (∀ before event more, events = before ++ event :: more →
      ∃ called, delivered (before ++ [event]) = delivered before ++ called ∧
        (called.map (·.number)).Nodup ∧
        ∀ n, n ∈ called.map (·.number) ↔ Calls tk (after before) event n) ∧
    (∀ before more, events = before ++ more →
      (∀ key n, (after before).subscriptions.live.get? key = some n ↔
        StandsFor tk (.new world workDir settings) before n key) ∧
      (after before).subscriptions.reachability = before.foldl reported .empty ∧
      (after before).subscriptions.settings = before.foldl configured settings.clamped) ∧
    (∀ before event more key n, events = before ++ event :: more →
      Ends tk (after before) event key → (after before).subscriptions.live.get? key = some n →
      ∃ later, m.delivered = delivered before ++ later ∧ n ∉ later.map (·.number)) ∧
    (∀ d ∈ m.delivered, ∃ before event more key, events = before ++ event :: more ∧
      Makes tk (after before) event d.number key d.recipient) ∧
    (settings.rotationDisabled = false → KeepsRotating events → g.authority.isReady = true →
      ∀ key n, m.live.get? key = some n →
        let names := Subscription.namesFor key.kind m.reachability.all.toList
        names.Nodup ∧
        (∀ x, x ∈ names ↔
          key.kind = .server ∧ x ≠ "" ∧ (x ∈ m.reachability.all ∨ x = "localhost")) ∧
        ∃ s b leaf now entropy, ∃ ca : AuthorityMaterial,
          (n, s) ∈ m.orders ∧ s.name = key ∧ m.last? n = some b ∧ b.key = s.key.toPem ∧
          b.authorities = g.authority.chain ∧ ca.chain = g.authority.chain ∧
          ((tk.issue ⟨key.service, key.kind, names, leaf⟩ s.key ca.signing ca.key now).run
            entropy).1 = .ok b.certificate) := by
  intro after delivered g m
  have hnew : (Gateway.new world workDir settings).subscriptions.Registered :=
    Subscriptions.registered_empty settings
  refine ⟨?_, ?_, ?_, ?_, ?_⟩
  · rintro before event more rfl
    obtain ⟨hbefore, hs, -⟩ := noFailures_append.1 h
    obtain ⟨called, hhanded, hnodup, hnumbers⟩ := step_handed (registered_run hnew hbefore) hs
    refine ⟨called, ?_, hnodup, hnumbers⟩
    show (run tk _ (before ++ [event])).subscriptions.delivered = _
    rw [run_append]
    exact delivered_step hhanded
  · rintro before more rfl
    have hbefore := (noFailures_append.1 h).1
    exact ⟨fun key n => live_run_iff hnew rfl hbefore, frame_run hnew hbefore⟩
  · rintro before event more key n rfl hends hlive
    obtain ⟨hbefore, hrest⟩ := noFailures_append.1 h
    obtain ⟨later, hlater, hn⟩ := not_called_of_ends (registered_run hnew hbefore) hrest hlive hends
    refine ⟨later, ?_, hn⟩
    show (run tk _ (before ++ event :: more)).subscriptions.delivered = _
    rw [run_append]
    exact hlater
  · intro d hd
    obtain ⟨key, before, event, more, hevents, hmakes⟩ := (madeIn_run hnew rfl rfl h).2 d hd
    exact ⟨before, event, more, key, hevents, hmakes⟩
  · intro hrotating hevents hready key n hlive names
    refine ⟨Subscription.nodup_namesFor _ _, fun x => Subscription.mem_namesFor_iff, ?_⟩
    have hreg := registered_run hnew h
    obtain ⟨s, hs, rfl⟩ := (hreg.live_iff key n).1 hlive
    have hcurrent := allCurrent_run hnew h hrotating hevents (fun _ _ hs => nomatch hs) n s hs
    obtain ⟨b, ca, hlast, hchain, hauthorities, hkey, leaf, now, entropy, hissue⟩ :=
      hcurrent (AuthorityStore.isReady_iff_chain_ne_nil.1 hready)
    exact ⟨s, b, _, now, entropy, ca, hs, rfl, hlast, hkey, hauthorities.trans hchain, hchain, hissue⟩

/-! ### A server under two authorities -/

/-- Certificates that say who issued them to whom. -/
def plainToolkit : Toolkit :=
  { Toolkit.standard with
    chain := fun _ => .ok []
    keyType := fun _ => .ok (some .ecdsaP256)
    certifiedBy := fun _ _ => .ok true
    expiry := fun _ => .ok 0
    newKey := fun _ => pure (.ok (.edwards []))
    newAuthority := fun name _ _ _ => pure (.ok ⟨name, "key"⟩)
    issue := fun request _ signing _ _ => pure (.ok (request.commonName ++ " by " ++ signing)) }

/-- A world without files. -/
def emptyWorld : World := ⟨.empty, .ofSeed []⟩

/-- The name of a server. -/
def broker : SubscriptionKey := ⟨"broker", .server⟩

/-- A server subscribes before there is an authority, and its address becomes known. -/
def brokerStart : List Event :=
  [.subscribe 0 broker (.caller "first"), .generate 0 .ecdsaP256,
    .recordAddresses 0 "configuration" ["10.0.0.1"]]

/-- The server subscribes again, and another authority is imported. -/
def brokerRun : List Event :=
  brokerStart ++ [.subscribe 0 broker (.caller "second"), .install 0 "key" ["imported"]]

/-- The server's second subscription has a certificate of the imported authority, and the first one was
not called after it was replaced. -/
theorem calls_run_broker :
    let after := run plainToolkit (.new emptyWorld ⟨"/work"⟩ .standard)
    NoFailures plainToolkit (.new emptyWorld ⟨"/work"⟩ .standard) brokerRun ∧
      (after brokerRun).subscriptions.live.get? broker = some 1 ∧
      (∃ b, (after brokerRun).subscriptions.last? 1 = some b ∧ b.authorities = ["imported"]) ∧
      ∃ later, (after brokerRun).subscriptions.delivered =
        (after brokerStart).subscriptions.delivered ++ later ∧ 0 ∉ later.map (·.number) := by
  intro after
  have hnone : NoFailures plainToolkit (.new emptyWorld ⟨"/work"⟩ .standard) brokerRun := by
    decide +kernel
  have hlive : (after brokerRun).subscriptions.live.get? broker = some 1 ∧
      (after brokerRun).authority.chain = ["imported"] := by
    decide +kernel
  have hreplaced : keyDrawn plainToolkit (after brokerStart) = true ∧
      (after brokerStart).subscriptions.live.get? broker = some 0 := by
    decide +kernel
  have hrotating : KeepsRotating brokerRun := by
    intro settings hsettings
    simp [brokerRun, brokerStart] at hsettings
  obtain ⟨-, -, hends, -, hcurrent⟩ :=
    calls_run plainToolkit emptyWorld ⟨"/work"⟩ .standard brokerRun hnone
  refine ⟨hnone, hlive.1, ?_, hends brokerStart _ _ broker 0 rfl ⟨hreplaced.1, rfl⟩ hreplaced.2⟩
  have hready : (after brokerRun).authority.isReady = true := by
    rw [AuthorityStore.isReady_iff_chain_ne_nil]
    show (after brokerRun).authority.chain ≠ []
    rw [hlive.2]
    exact List.cons_ne_nil _ _
  obtain ⟨-, -, s, b, leaf, now, entropy, ca, -, -, hlast, -, hauthorities, -⟩ :=
    hcurrent rfl hrotating hready broker 1 hlive.1
  exact ⟨b, hlast, hauthorities.trans hlive.2⟩

end CertificateRun

end DeviceAccess
