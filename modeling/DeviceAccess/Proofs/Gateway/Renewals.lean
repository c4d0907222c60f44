import DeviceAccess.Proofs.Along
import DeviceAccess.Proofs.Gateway.CertificateRuns
import DeviceAccess.Proofs.Leaf.Expiry

/-!
# Certificates do not lapse

Runs of a gateway by the clock: what happens to its certificates, with the checks that renew those that
come to their end, each at a reading of the clock in milliseconds since the start of 1970.

Suppose no issuance fails, rotation is not disabled, and checks come at most thirty seconds apart.  Then
the last certificate of every live subscription outlasts every reading of the clock
(`TimedRun.outlasts_run`).  The induction starts at the last check before the reading, or where the
subscription did not exist yet, and carries `Subscriptions.Lasting` on from there.
-/

namespace DeviceAccess

/-- The event at another time. -/
def CertificateRun.Event.at (now : Int) : Event → Event
  | .subscribe _ key recipient => .subscribe now key recipient
  | .unsubscribe key => .unsubscribe key
  | .generate _ keyType => .generate now keyType
  | .install _ key chain => .install now key chain
  | .recordAddresses _ source addresses => .recordAddresses now source addresses
  | .configure settings => .configure settings
  | .elsewhere world => .elsewhere world

namespace TimedRun

/-- What happens at a reading of the clock. -/
structure Event where
  /-- Milliseconds since the start of 1970. -/
  millis : Nat
  /-- What happens, at the time of the reading; none for a check. -/
  change : Option CertificateRun.Event

variable (tk : Toolkit)

/-- The gateway after an event. -/
def step (g : Gateway) (event : Event) : Gateway :=
  match event.change with
  | some change => CertificateRun.step tk g (change.at (event.millis / 1000 : Nat))
  | none => (g.renew tk (event.millis / 1000 : Nat) event.millis).1

/-- The gateway after events, one after the other. -/
def run (g : Gateway) (events : List Event) : Gateway := events.foldl (step tk) g

/-- No issuance of an event fails. -/
def Succeeds (g : Gateway) (event : Event) : Prop :=
  match event.change with
  | some change => CertificateRun.Succeeds tk g (change.at (event.millis / 1000 : Nat))
  | none => g.subscriptions.AllIssued tk (event.millis / 1000 : Nat) g.authority
      (fun s => s.isDue event.millis) g.world

/-- No issuance of a run fails. -/
def NoFailures (g : Gateway) (events : List Event) : Prop := Along (step tk) (Succeeds tk) g events

instance decidableSucceeds (g : Gateway) (event : Event) : Decidable (Succeeds tk g event) :=
  match event with
  | ⟨millis, some change⟩ =>
    inferInstanceAs
      (Decidable (CertificateRun.Succeeds tk g (change.at (millis / 1000 : Nat))))
  | ⟨_, none⟩ => inferInstanceAs (Decidable ((_ : Nat) = _))

instance decidableNoFailures (g : Gateway) (events : List Event) :
    Decidable (NoFailures tk g events) :=
  inferInstanceAs (Decidable (Along (step tk) (Succeeds tk) g events))

/-- The clock does not go back. -/
def Ordered (events : List Event) : Prop := events.Pairwise fun e e' => e.millis ≤ e'.millis

/-- Rotation is not disabled by any event. -/
def KeepsRotating (events : List Event) : Prop :=
  ∀ event ∈ events, ∀ settings, event.change = some (.configure settings) →
    settings.rotationDisabled = false

/-- In the thirty seconds up to a reading of the clock there was a check, or the subscription of number
`n` did not exist yet. -/
def Attended (g : Gateway) (events : List Event) (n time : Nat) : Prop :=
  ∃ before event after, events = before ++ event :: after ∧
    time ≤ event.millis + Service.renewalPeriod ∧
    (event.change = none ∨ (run tk g before).subscriptions.next ≤ n)

variable {tk} {g : Gateway} {event : Event} {events : List Event} {who : Nat → Prop} {time : Nat}

theorem run_append (tk : Toolkit) (g : Gateway) (events more : List Event) :
    run tk g (events ++ more) = run tk (run tk g events) more :=
  List.foldl_append

/-! ### What every event keeps -/

/-- The gateway is in order: the registry is, rotation is not disabled, and every last bundle is up to
date. -/
structure InOrder (tk : Toolkit) (g : Gateway) : Prop where
  registered : g.subscriptions.Registered
  rotating : g.subscriptions.settings.rotationDisabled = false
  current : CertificateRun.AllCurrent tk g

theorem InOrder.step (h : InOrder tk g) (hs : Succeeds tk g event) (hevent : KeepsRotating [event]) :
    InOrder tk (step tk g event) := by
  obtain ⟨millis, change⟩ := event
  cases change with
  | some change =>
      have hchange : CertificateRun.KeepsRotating [change.at (millis / 1000 : Nat)] := by
        intro settings hsettings
        have heq := List.mem_singleton.1 hsettings
        cases change with
        | configure settings' => exact hevent _ List.mem_cons_self settings (heq ▸ rfl)
        | subscribe now key recipient => cases heq
        | unsubscribe key => cases heq
        | generate now keyType => cases heq
        | install now key chain => cases heq
        | recordAddresses now source addresses => cases heq
        | elsewhere world => cases heq
      exact ⟨CertificateRun.registered_step h.registered hs,
        CertificateRun.settings_step h.registered hs h.rotating hchange,
        CertificateRun.allCurrent_step h.registered hs h.rotating h.current⟩
  | none =>
      obtain ⟨called, hhanded, -⟩ := Subscriptions.reissue_handed h.registered.numbered hs
      refine ⟨hhanded.registered h.registered, ?_, fun n s hs' => ?_⟩
      · exact (congrArg LeafSettings.rotationDisabled hhanded.settings).trans h.rotating
      · exact hhanded.isCurrent h.registered (fun n s hs' _ => h.current n s hs') hs'

theorem InOrder.run (h : InOrder tk g) (hnone : NoFailures tk g events)
    (hevents : KeepsRotating events) : InOrder tk (run tk g events) := by
  induction events generalizing g with
  | nil => exact h
  | cons event events ih =>
      refine ih (h.step hnone.1 fun e he => hevents e ?_) hnone.2 fun e he => hevents e ?_
      · exact List.mem_singleton.1 he ▸ List.mem_cons_self
      · exact List.mem_cons_of_mem _ he

/-! ### Certificates that last -/

/-- An operation on the authority issues to everybody or to nobody. -/
theorem lasting_settle (hdates : tk.DatesCertificates) (hg : InOrder tk g)
    (h : g.subscriptions.Lasting tk who time) {millis : Nat}
    (htime : time ≤ millis + Service.renewalPeriod) {o : AuthorityOutcome}
    (hs : CertificateRun.RotationSucceeds tk (millis / 1000 : Nat) g o) :
    (g.settle tk (millis / 1000 : Nat) o).1.subscriptions.Lasting tk who time := by
  obtain ⟨-, ⟨-, hsame⟩ | ⟨hchanged, hreissue⟩⟩ :=
    CertificateRun.settle_cases tk (millis / 1000 : Nat) g o
  · rw [hsame]
    exact h
  · rw [hreissue]
    exact (h.reissue hdates hg.rotating htime hg.registered.numbered (hs hchanged)).mono
      fun n s _ hn => .inl hn

theorem lasting_subscribe (hdates : tk.DatesCertificates) (hg : InOrder tk g)
    (h : g.subscriptions.Lasting tk who time) {millis : Nat}
    (htime : time ≤ millis + Service.renewalPeriod) {key : SubscriptionKey} {recipient : Recipient}
    (hs : CertificateRun.Succeeds tk g (.subscribe (millis / 1000 : Nat) key recipient)) :
    (g.subscriptions.subscribe tk (millis / 1000 : Nat) g.authority g.world key
      recipient).1.Lasting tk who time := by
  rcases hdraw : g.world.draw (tk.newKey g.subscriptions.settings.keyType) with ⟨w, f | privateKey⟩
  · rw [Subscriptions.subscribe_of_error _ g.authority recipient hdraw]
    exact h
  · have hjoin := h.join (s := .new key.service key.kind privateKey recipient) rfl
    cases hready : g.authority.isReady with
    | false =>
        rw [Subscriptions.subscribe_of_not_ready hdraw hready]
        exact hjoin
    | true =>
        obtain ⟨-, -, hsettings, -⟩ := Subscriptions.frame_join g.subscriptions
          (.new key.service key.kind privateKey recipient)
        have hregistered := Subscriptions.registered_join
          (s := .new key.service key.kind privateKey recipient) hg.registered rfl
        have hdrawn := (CertificateRun.arranged_of_key hdraw 0 key recipient).1
        rw [Subscriptions.subscribe_eq_issueTo hdraw hready (hs hdrawn)]
        exact (hjoin.issueTo hdates
          ((congrArg LeafSettings.rotationDisabled hsettings).trans hg.rotating) htime
          hregistered.numbered (Subscriptions.mem_tracked_join hg.registered _) g.authority w).1

theorem lasting_recordAddresses (hdates : tk.DatesCertificates) (hg : InOrder tk g)
    (h : g.subscriptions.Lasting tk who time) {millis : Nat}
    (htime : time ≤ millis + Service.renewalPeriod) {source : String} {addresses : List HostAddress}
    (hs : CertificateRun.Succeeds tk g
      (.recordAddresses (millis / 1000 : Nat) source addresses)) :
    (g.subscriptions.recordAddresses tk (millis / 1000 : Nat) g.authority g.world source
      addresses).1.Lasting tk who time := by
  let m := { g.subscriptions with
    reachability := (g.subscriptions.reachability.record source addresses).1 }
  have hreport : m.Lasting tk who time := h.arrange (fun e he => .inl he) rfl rfl
  have hnumbered : m.Numbered := hg.registered.numbered
  have hrotating : m.settings.rotationDisabled = false := hg.rotating
  unfold Subscriptions.recordAddresses
  simp only
  split
  · exact hreport
  · next hgo =>
      rw [Bool.not_eq_true, Bool.or_eq_false_iff, Bool.not_eq_false', ← Bool.not_eq_true,
        Reachability.isEmpty_record_iff] at hgo
      exact (hreport.reissue hdates hrotating htime hnumbered (hs hgo.2 hgo.1)).mono
        fun n s _ hn => .inl hn

/-- Whatever happens at a reading of the clock, certificates that last past the next check are not
replaced by ones that do not. -/
theorem lasting_step (hdates : tk.DatesCertificates) (hg : InOrder tk g) (hs : Succeeds tk g event)
    (htime : time ≤ event.millis + Service.renewalPeriod) (h : g.subscriptions.Lasting tk who time) :
    (step tk g event).subscriptions.Lasting tk who time := by
  obtain ⟨millis, change⟩ := event
  cases change with
  | none =>
      exact (h.reissue hdates hg.rotating htime hg.registered.numbered hs).mono
        fun n s _ hn => .inl hn
  | some change =>
      cases change with
      | subscribe now key recipient => exact lasting_subscribe hdates hg h htime hs
      | unsubscribe key => exact h.unsubscribe key
      | generate now keyType => exact lasting_settle hdates hg h htime hs
      | install now key chain => exact lasting_settle hdates hg h htime hs
      | recordAddresses now source addresses => exact lasting_recordAddresses hdates hg h htime hs
      | configure settings => exact h.configure settings
      | elsewhere world => exact h

theorem lasting_run (hdates : tk.DatesCertificates) (hg : InOrder tk g) (hs : NoFailures tk g events)
    (hevents : KeepsRotating events)
    (htime : ∀ event ∈ events, time ≤ event.millis + Service.renewalPeriod)
    (h : g.subscriptions.Lasting tk who time) :
    (run tk g events).subscriptions.Lasting tk who time := by
  induction events generalizing g with
  | nil => exact h
  | cons event events ih =>
      have hevent : KeepsRotating [event] := by
        intro e he
        exact hevents e (List.mem_singleton.1 he ▸ List.mem_cons_self)
      refine ih (hg.step hs.1 hevent) hs.2 (fun e he => hevents e (List.mem_cons_of_mem _ he))
        (fun e he => htime e (List.mem_cons_of_mem _ he)) ?_
      exact lasting_step hdates hg hs.1 (htime event List.mem_cons_self) h

/-! ### Between two checks -/

/-- After the last thirty seconds the certificate of a subscription that was attended to lasts past the
reading: since a check all certificates do, and since a time before it existed its own does. -/
theorem lasting_of_attended (hdates : tk.DatesCertificates) (hg : InOrder tk g)
    (hs : NoFailures tk g events) (hevents : KeepsRotating events) (hordered : Ordered events)
    (h : g.subscriptions.Lasting tk (fun _ => False) 0) {n : Nat}
    (hattended : Attended tk g events n time) :
    (run tk g events).subscriptions.Lasting tk (fun k => k = n) time := by
  obtain ⟨before, event, after, rfl, htime, hanchor⟩ := hattended
  obtain ⟨hsBefore, hsEvent, hsAfter⟩ := along_append.1 hs
  have hafter : ∀ e ∈ after, time ≤ e.millis + Service.renewalPeriod := by
    intro e he
    have hle := (List.pairwise_cons.1 (List.pairwise_append.1 hordered).2.1).1 e he
    omega
  have hrotating : ∀ more, (∀ e ∈ more, e ∈ before ++ event :: after) → KeepsRotating more :=
    fun more hmore e he => hevents e (hmore e he)
  have hmid := hg.run hsBefore (hrotating before fun e he => List.mem_append_left _ he)
  have hknown := lasting_run hdates hg hsBefore
    (hrotating before fun e he => List.mem_append_left _ he) (fun _ _ => Nat.zero_le _) h
  have hlast : (step tk (run tk g before) event).subscriptions.Lasting tk (fun k => k = n) time := by
    have hnobody : (run tk g before).subscriptions.Lasting tk (fun _ => False) time :=
      ⟨hknown.minutes, hknown.dated, fun _ _ _ _ _ hn => hn.elim⟩
    obtain ⟨millis, change⟩ := event
    rcases hanchor with rfl | hnew
    · exact (hnobody.renew hdates hmid.rotating htime hmid.registered.numbered hsEvent).mono
        fun _ _ _ _ => trivial
    · refine lasting_step hdates hmid hsEvent htime (hnobody.mono fun k s hs hk => ?_)
      -- The number is not in use yet.
      have hlt := hmid.registered.lt_next k _ (Subscriptions.mem_orders_of_mem hs)
      omega
  have hrun : run tk g (before ++ event :: after) =
      run tk (step tk (run tk g before) event) after := by
    rw [run_append]
    rfl
  rw [hrun]
  refine lasting_run hdates (hmid.step hsEvent (hrotating [event] ?_)) hsAfter
    (hrotating after ?_) hafter hlast
  · intro e he
    exact List.mem_append_right _ (List.mem_singleton.1 he ▸ List.mem_cons_self)
  · exact fun e he => List.mem_append_right _ (List.mem_cons_of_mem _ he)

/-- **Certificates never lapse.**  Take a run from a new gateway in which no issuance fails, rotation is
never disabled and the clock does not go back, up to any reading of the clock.  If there is an authority
and a live subscription was attended to in the thirty seconds up to the reading, by a check or by being
made, then it has a certificate, and the validity of its last one ends after the reading. -/
theorem outlasts_run (hdates : tk.DatesCertificates) (world : World) (workDir : Path)
    (settings : LeafSettings) (hrotating : settings.rotationDisabled = false) (events : List Event)
    (hs : NoFailures tk (.new world workDir settings) events) (hevents : KeepsRotating events)
    (hordered : Ordered events) :
    let g := run tk (.new world workDir settings) events
    g.authority.isReady = true → ∀ key n, g.subscriptions.live.get? key = some n →
      Attended tk (.new world workDir settings) events n time →
      ∃ b expiry, g.subscriptions.last? n = some b ∧ tk.expiry b.certificate = .ok expiry ∧
        time < 1000 * expiry := by
  intro g hready key n hlive hattended
  have hnew : InOrder tk (.new world workDir settings) :=
    ⟨Subscriptions.registered_empty settings, hrotating, nofun⟩
  have hg := hnew.run hs hevents
  have hlasting := lasting_of_attended hdates hnew hs hevents hordered
    (Subscriptions.lasting_empty tk _ 0 settings) hattended
  obtain ⟨s, hs', -⟩ := (hg.registered.live_iff key n).1 hlive
  obtain ⟨b, ca, hlast, -⟩ := hg.current n s hs' (AuthorityStore.isReady_iff_chain_ne_nil.1 hready)
  have hholds : g.subscriptions.Holds n := by
    obtain ⟨d, hfind, -⟩ := Option.map_eq_some_iff.1 hlast
    have hnumber := List.find?_some hfind
    refine (hg.registered.holds_iff n s hs').2 ⟨d, ?_, of_decide_eq_true hnumber⟩
    exact List.mem_reverse.1 (List.mem_of_find?_eq_some hfind)
  obtain ⟨s₁, hs₁, hsome⟩ := hholds
  obtain ⟨expiry, hexpiry⟩ := Option.isSome_iff_exists.1 hsome
  obtain ⟨b', hb', hend⟩ := hlasting.dated n s₁ expiry hs₁ hexpiry
  exact ⟨b', expiry, hb', hend, hlasting.lasts n s₁ expiry hs₁ hexpiry rfl⟩

/-! ### A server for more than a minute -/

/-- Certificates that consist of as many letters as there are seconds to their end. -/
def countingToolkit : Toolkit :=
  { CertificateRun.plainToolkit with
    expiry := fun text => .ok text.length
    issue := fun request _ _ _ now =>
      pure (.ok (String.ofList (List.replicate (now + request.validity).toNat 'x'))) }

theorem datesCertificates_countingToolkit : countingToolkit.DatesCertificates := by
  intro request key signing authorityKey now entropy certificate expiry hissue hexpiry
  obtain rfl := Except.ok.inj hissue
  obtain rfl := Except.ok.inj hexpiry
  rw [String.length_ofList, List.length_replicate]
  omega

/-- Certificates that hold for one second, which counts as a minute. -/
def shortLived : LeafSettings := { LeafSettings.standard with serverValiditySecs := 1 }

/-- A server subscribes, and is checked on after half a minute and after a minute. -/
def brokerMinute : List Event :=
  [⟨0, some (.generate 0 .ecdsaP256)⟩,
    ⟨500, some (.subscribe 0 CertificateRun.broker (.caller "broker"))⟩, ⟨30000, none⟩,
    ⟨60000, none⟩]

/-- The first certificate of the server has ended by then, but not its last one. -/
theorem outlasts_run_broker :
    NoFailures countingToolkit (.new CertificateRun.emptyWorld ⟨"/work"⟩ shortLived) brokerMinute ∧
      ∃ b expiry, (run countingToolkit (.new CertificateRun.emptyWorld ⟨"/work"⟩ shortLived)
          brokerMinute).subscriptions.last? 0 = some b ∧
        countingToolkit.expiry b.certificate = .ok expiry ∧ 90000 < 1000 * expiry := by
  have hnone : NoFailures countingToolkit
      (.new CertificateRun.emptyWorld ⟨"/work"⟩ shortLived) brokerMinute := by
    decide +kernel
  have hlive : (run countingToolkit (.new CertificateRun.emptyWorld ⟨"/work"⟩ shortLived)
        brokerMinute).authority.isReady = true ∧
      (run countingToolkit (.new CertificateRun.emptyWorld ⟨"/work"⟩ shortLived)
        brokerMinute).subscriptions.live.get? CertificateRun.broker = some 0 := by
    decide +kernel
  have hrotating : KeepsRotating brokerMinute := by
    intro event hevent settings hsettings
    simp only [brokerMinute, List.mem_cons, List.not_mem_nil, or_false] at hevent
    rcases hevent with rfl | rfl | rfl | rfl
    all_goals cases hsettings
  have hordered : Ordered brokerMinute := by
    simp [Ordered, brokerMinute]
  exact ⟨hnone, outlasts_run datesCertificates_countingToolkit CertificateRun.emptyWorld ⟨"/work"⟩
    shortLived rfl brokerMinute hnone hrotating hordered hlive.1 CertificateRun.broker 0 hlive.2
    ⟨brokerMinute.take 3, ⟨60000, none⟩, [], rfl, by decide, .inl rfl⟩⟩

end TimedRun

end DeviceAccess
