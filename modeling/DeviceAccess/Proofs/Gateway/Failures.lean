import DeviceAccess.Proofs.Gateway.CertificateRuns

/-!
# Issuances that fail

Certificates of subscriptions that there are already are issued again when the authority changes, when
addresses are reported, and when a check finds them due.  An issuance that fails on such an occasion is
reported and no more: whoever else is concerned is handed a bundle all the same
(`Occasion.perform_except_failures`).

Every occasion has the same form.  The gateway is prepared for it (`Occasion.prepared`), which needs no
certificates, then those whom it concerns are issued theirs, and the answer depends on what was
prepared and, for a check, on the number of issuances (`Occasion.perform_eq`).
-/

namespace DeviceAccess

/-- What makes the gateway issue certificates to the subscriptions that it has. -/
inductive Occasion where
  /-- An authority is generated. -/
  | generate (keyType : KeyType)
  /-- An authority is imported. -/
  | install (key : String) (chain : List String)
  /-- A source reports addresses. -/
  | recordAddresses (source : String) (addresses : List HostAddress)
  /-- Certificates are checked at a time, in milliseconds since the start of 1970. -/
  | check (millis : Int)

/-- What the gateway answers on an occasion. -/
inductive Answer where
  /-- Whether the operation on the authority succeeded. -/
  | settled (result : Except Fault Unit)
  /-- How the addresses changed. -/
  | changed (change : ReachabilityChange)
  /-- How many certificates were renewed. -/
  | renewed (count : Nat)

namespace Occasion

section
variable (tk : Toolkit) (now : Int) (g : Gateway)

/-- The gateway after an occasion, with its answer. -/
def perform : Occasion → Gateway × Answer
  | generate keyType => (g.generateAuthority tk now keyType).map id .settled
  | install key chain => (g.importAuthority tk now ⟨key, chain⟩).map id .settled
  | recordAddresses source addresses =>
    (g.recordAddresses tk now source addresses).map id .changed
  | check millis => (g.renew tk now millis).map id .renewed

/-- The gateway when certificates are about to be issued. -/
def prepared : Occasion → Gateway
  | generate keyType =>
    let o := g.authority.update tk now g.world keyType
    { g with authority := o.store, world := o.world }
  | install key chain =>
    let o := g.authority.install tk g.world key chain
    { g with authority := o.store, world := o.world }
  | recordAddresses source addresses =>
    let reachability := (g.subscriptions.reachability.record source addresses).1
    { g with subscriptions := { g.subscriptions with reachability } }
  | check _ => g

/-- Whom an occasion concerns: all if the chain in force changes, servers if the addresses change while
there is an authority, and at a check those that are due. -/
def concerns : Occasion → Subscription → Bool
  | generate keyType, _ => (prepared tk now g (generate keyType)).authority.chain ≠ g.authority.chain
  | install key chain, _ => (prepared tk now g (install key chain)).authority.chain ≠ g.authority.chain
  | recordAddresses source addresses, s =>
    g.authority.isReady && s.kind = .server &&
      (g.subscriptions.reachability.record source addresses).1.all ≠ g.subscriptions.reachability.all
  | check millis, s => s.isDue millis

/-- The answer, with the number of issuances that succeeded. -/
def answer (o : Occasion) (count : Nat) : Answer :=
  match o with
  | generate keyType => .settled (g.authority.update tk now g.world keyType).result
  | install key chain => .settled (g.authority.install tk g.world key chain).result
  | recordAddresses source addresses =>
    .changed (g.subscriptions.reachability.record source addresses).2
  | check _ => .renewed count

/-- The numbers of the subscriptions that an occasion concerns, oldest first. -/
def concerned (o : Occasion) : List Nat :=
  (g.subscriptions.tracked.filter fun e => o.concerns tk now g e.2).map (·.1)

/-- The numbers of the subscriptions whose issuance fails on an occasion. -/
def failures (o : Occasion) : List Nat :=
  let p := o.prepared tk now g
  Subscriptions.failures tk now p.authority (o.concerns tk now g) p.subscriptions p.world

end

variable {g : Gateway}

/-! ### The form of an occasion -/

/-- An operation on the authority issues certificates to all if it changes the chain. -/
theorem settle_eq (tk : Toolkit) (now : Int) {o : AuthorityOutcome}
    (hchanged : o.changed ≠ none ↔ o.store.chain ≠ g.authority.chain) :
    let r := g.subscriptions.reissue tk now o.store
      (fun _ => o.store.chain ≠ g.authority.chain) o.world
    g.settle tk now o =
      ({ g with authority := o.store, world := r.2.1, subscriptions := r.1 }, o.result) := by
  intro r
  unfold Gateway.settle
  cases ho : o.changed with
  | none =>
      have hsame : ¬o.store.chain ≠ g.authority.chain := fun h => hchanged.2 h ho
      have hr : r = (g.subscriptions, o.world, 0) :=
        Subscriptions.reissue_nobody tk now o.store (fun _ _ => decide_eq_false hsame) o.world
      rw [hr]
  | some chain =>
      have hother : o.store.chain ≠ g.authority.chain := hchanged.1 (by rw [ho]; exact nofun)
      have hr : r = g.subscriptions.reissue tk now o.store (fun _ => true) o.world :=
        congrArg (fun due => g.subscriptions.reissue tk now o.store due o.world)
          (funext fun _ => decide_eq_true hother)
      rw [hr]
      rfl

/-- A report issues certificates to servers if it changes the addresses while there is an authority. -/
theorem recordAddresses_eq (tk : Toolkit) (now : Int) (g : Gateway) (source : String)
    (addresses : List HostAddress) :
    let o := recordAddresses source addresses
    let p := o.prepared tk now g
    let r := p.subscriptions.reissue tk now p.authority (o.concerns tk now g) p.world
    g.recordAddresses tk now source addresses =
      ({ p with subscriptions := r.1, world := r.2.1 },
        (g.subscriptions.reachability.record source addresses).2) := by
  intro o p r
  have hempty := g.subscriptions.reachability.isEmpty_record_iff source addresses
  have hconcerns (s : Subscription) : o.concerns tk now g s =
      (g.authority.isReady && s.kind = .server &&
        (g.subscriptions.reachability.record source addresses).1.all ≠
          g.subscriptions.reachability.all) := rfl
  unfold Gateway.recordAddresses Subscriptions.recordAddresses
  simp only
  split
  · next hskip =>
      rw [Bool.or_eq_true, Bool.not_eq_true', hempty] at hskip
      have hr : r = (p.subscriptions, p.world, 0) := by
        refine Subscriptions.reissue_nobody tk now p.authority (fun e _ => ?_) p.world
        rw [hconcerns]
        rcases hskip with hsame | hready
        · simp [hsame]
        · simp [hready]
      rw [hr]
      rfl
  · next hgo =>
      rw [Bool.not_eq_true, Bool.or_eq_false_iff, Bool.not_eq_false', ← Bool.not_eq_true,
        hempty] at hgo
      have hservers : o.concerns tk now g = fun s => decide (s.kind = .server) := by
        funext s
        rw [hconcerns, hgo.2, decide_eq_true hgo.1, Bool.true_and, Bool.and_true]
      have hr : r = p.subscriptions.reissue tk now p.authority (fun s => s.kind = .server) p.world :=
        congrArg (fun due => p.subscriptions.reissue tk now p.authority due p.world) hservers
      rw [hr]
      rfl

/-- On every occasion the gateway is prepared, whoever is concerned is issued a certificate, and the
answer is given. -/
theorem perform_eq (tk : Toolkit) (now : Int) (g : Gateway) (o : Occasion) :
    let p := o.prepared tk now g
    let r := p.subscriptions.reissue tk now p.authority (o.concerns tk now g) p.world
    o.perform tk now g =
      ({ p with subscriptions := r.1, world := r.2.1 }, o.answer tk now g r.2.2) := by
  cases o with
  | generate keyType =>
      exact congrArg (Prod.map id Answer.settled)
        (settle_eq tk now (AuthorityStore.changed_update_iff tk now _ _ keyType))
  | install key chain =>
      exact congrArg (Prod.map id Answer.settled)
        (settle_eq tk now (AuthorityStore.changed_install_iff tk _ _ key chain))
  | recordAddresses source addresses =>
      exact congrArg (Prod.map id Answer.changed) (recordAddresses_eq tk now g source addresses)
  | check millis => rfl

/-! ### Who is handed a bundle -/

/-- To prepare an occasion changes no subscription. -/
theorem tracked_prepared (tk : Toolkit) (now : Int) (g : Gateway) (o : Occasion) :
    (o.prepared tk now g).subscriptions.tracked = g.subscriptions.tracked ∧
      (o.prepared tk now g).subscriptions.settings = g.subscriptions.settings := by
  cases o with
  | generate keyType => exact ⟨rfl, rfl⟩
  | install key chain => exact ⟨rfl, rfl⟩
  | recordAddresses source addresses => exact ⟨rfl, rfl⟩
  | check millis => exact ⟨rfl, rfl⟩

/-- Without disabled rotation all that are concerned are handed one bundle each, except for those whose
issuance fails, and whoever is handed nothing stays as it is. -/
theorem perform_handed (tk : Toolkit) (now : Int) (hm : g.subscriptions.Numbered)
    (hrotating : g.subscriptions.settings.rotationDisabled = false) (o : Occasion) :
    let p := o.prepared tk now g
    let r := o.perform tk now g
    ∃ called, Subscriptions.Handed tk p.authority p.subscriptions r.1.subscriptions called ∧
      called.map (·.number) =
        (o.concerned tk now g).filter (fun n => n ∉ o.failures tk now g) ∧
      (∀ e ∈ g.subscriptions.tracked, e.1 ∉ called.map (·.number) → e ∈ r.1.subscriptions.tracked) ∧
      r.1.authority = p.authority ∧ r.2 = o.answer tk now g called.length := by
  intro p r
  obtain ⟨htracked, hsettings⟩ := tracked_prepared tk now g o
  have hnumbered : p.subscriptions.Numbered := by
    unfold Subscriptions.Numbered at hm ⊢
    rw [Subscriptions.map_fst_orders] at hm ⊢
    exact htracked ▸ hm
  obtain ⟨called, hhanded, hnumbers, hstay, hcount⟩ := Subscriptions.reissue_handed_of_rotating tk now
    p.authority hnumbered (hsettings ▸ hrotating) (o.concerns tk now g) p.world
  rw [htracked] at hnumbers hstay
  have hr : r = _ := perform_eq tk now g o
  rw [hr]
  exact ⟨called, hhanded, hnumbers, hstay, rfl, congrArg (fun n => o.answer tk now g n) hcount⟩

/-- The operation on the authority that changes the chain succeeds. -/
theorem answer_of_chain_ne (tk : Toolkit) (now : Int) (g : Gateway) (count : Nat) {o : Occasion}
    (h : (o.prepared tk now g).authority.chain ≠ g.authority.chain) :
    o.answer tk now g count = .settled (.ok ()) := by
  cases o with
  | generate keyType =>
      exact congrArg Answer.settled (AuthorityStore.result_of_changed_update
        ((AuthorityStore.changed_update_iff tk now _ _ keyType).2 h))
  | install key chain =>
      exact congrArg Answer.settled (AuthorityStore.result_of_changed_install
        ((AuthorityStore.changed_install_iff tk _ _ key chain).2 h))
  | recordAddresses source addresses => exact absurd rfl h
  | check millis => exact absurd rfl h

/-- Only a check counts. -/
theorem answer_eq_of_not_check (tk : Toolkit) (now : Int) (g : Gateway) {o : Occasion}
    (h : ∀ millis, o ≠ .check millis) (n k : Nat) : o.answer tk now g n = o.answer tk now g k := by
  cases o with
  | check millis => exact absurd rfl (h millis)
  | _ => rfl

/-- The preparations, whom an occasion concerns and its answer do not depend on how certificates are
issued. -/
theorem prepared_eq_of_issue (tk : Toolkit) (now : Int) (g : Gateway)
    (issue : Issue.Request → PrivateKey → String → String → Int →
      StateM Entropy (Except Fault String)) (expiry : String → Except Fault Nat) (o : Occasion) :
    let tk' := { tk with issue, expiry }
    o.prepared tk' now g = o.prepared tk now g ∧ o.concerned tk' now g = o.concerned tk now g ∧
      ∀ n, o.answer tk' now g n = o.answer tk now g n := by
  cases o with
  | generate keyType => exact ⟨rfl, rfl, fun _ => rfl⟩
  | install key chain => exact ⟨rfl, rfl, fun _ => rfl⟩
  | recordAddresses source addresses => exact ⟨rfl, rfl, fun _ => rfl⟩
  | check millis => exact ⟨rfl, rfl, fun _ => rfl⟩

/-- **Failures stay by themselves.**  Let rotation not be disabled.  On every occasion, whichever
issuances fail:

* Exactly those whom the occasion concerns are handed a bundle, except for those whose issuance fails.
  Every bundle holds a certificate of the authority in force and goes to the recipient of its
  subscription.
* Whose issuance fails is handed nothing, and its subscription, with the end of its last certificate,
  stays as it was.
* The occasion ends as it was prepared: with the authority and the addresses that it brings, and with
  its answer.  If it changes the chain in force, the answer is success.
* Had certificates been issued in a way in which nobody fails, the same subscriptions would have been
  handed a bundle, with those that fail, and the authority, the addresses and the answer would have
  been the same, but for the number that a check answers.  This is how many bundles are handed over. -/
theorem perform_except_failures (tk : Toolkit) (now : Int) (g : Gateway)
    (hm : g.subscriptions.Numbered)
    (hrotating : g.subscriptions.settings.rotationDisabled = false) (o : Occasion) :
    let before := (o.prepared tk now g).subscriptions
    let r := o.perform tk now g
    let failures := o.failures tk now g
    ∃ called, Subscriptions.Handed tk r.1.authority before r.1.subscriptions called ∧
      failures.Sublist (o.concerned tk now g) ∧
      called.map (·.number) = (o.concerned tk now g).filter (fun n => n ∉ failures) ∧
      (∀ e ∈ g.subscriptions.tracked, e.1 ∈ failures →
        e.1 ∉ called.map (·.number) ∧ e ∈ r.1.subscriptions.tracked) ∧
      (r.1.authority = (o.prepared tk now g).authority ∧ r.2 = o.answer tk now g called.length ∧
        (r.1.authority.chain ≠ g.authority.chain → r.2 = .settled (.ok ()))) ∧
      ∀ issue expiry,
        let tk' := { tk with issue, expiry }
        let r' := o.perform tk' now g
        o.failures tk' now g = [] →
          ∃ called', Subscriptions.Handed tk' r'.1.authority before r'.1.subscriptions called' ∧
            called.map (·.number) = (called'.map (·.number)).filter (fun n => n ∉ failures) ∧
            r.1.authority = r'.1.authority ∧
            r.1.subscriptions.reachability = r'.1.subscriptions.reachability ∧
            r'.2 = o.answer tk now g called'.length ∧ ((∀ millis, o ≠ .check millis) → r.2 = r'.2) := by
  intro before r failures
  obtain ⟨called, hhanded, hnumbers, hstay, hauthority, hanswer⟩ :=
    perform_handed tk now hm hrotating o
  have hfailed : ∀ n ∈ failures, n ∉ called.map (·.number) := by
    intro n hn hcalled
    rw [hnumbers] at hcalled
    exact of_decide_eq_true (List.mem_filter.1 hcalled).2 hn
  have hsublist : failures.Sublist (o.concerned tk now g) := by
    unfold concerned
    rw [← (tracked_prepared tk now g o).1]
    exact (Subscriptions.failing_sublist tk now _ _ _ 0 _).1
  refine ⟨called, ?_, hsublist, hnumbers, fun e he hn => ⟨hfailed e.1 hn, hstay e he (hfailed e.1 hn)⟩,
    ⟨hauthority, hanswer, fun hchain => ?_⟩, ?_⟩
  · rw [hauthority]
    exact hhanded
  · rw [hauthority] at hchain
    exact hanswer.trans (answer_of_chain_ne tk now g _ hchain)
  · intro issue expiry tk' r' hnone
    obtain ⟨hprepared, hconcerned, hanswers⟩ := prepared_eq_of_issue tk now g issue expiry o
    obtain ⟨called', hhanded', hnumbers', -, hauthority', hanswer'⟩ :=
      perform_handed tk' now hm hrotating o
    have hall : called'.map (·.number) = o.concerned tk now g := by
      rw [hnumbers', hnone, hconcerned]
      exact List.filter_eq_self.2 fun _ _ => rfl
    rw [hprepared] at hhanded' hauthority'
    refine ⟨called', ?_, ?_, hauthority.trans hauthority'.symm,
      hhanded.reachability.trans hhanded'.reachability.symm, hanswer'.trans (hanswers _),
      fun hcheck => ?_⟩
    · rw [hauthority']
      exact hhanded'
    · rw [hall]
      exact hnumbers
    · rw [hanswer, answer_eq_of_not_check tk now g hcheck called.length called'.length, ← hanswers]
      exact hanswer'.symm

/-! ### One of three fails -/

/-- A gateway with an authority and three subscriptions. -/
def trio : Gateway :=
  CertificateRun.run CertificateRun.plainToolkit (.new CertificateRun.emptyWorld ⟨"/work"⟩ .standard)
    [.generate 0 .ecdsaP256, .subscribe 0 CertificateRun.broker (.caller "broker"),
      .subscribe 0 ⟨"mute", .server⟩ (.caller "mute"), .subscribe 0 ⟨"app", .client⟩ (.caller "app")]

/-- A toolkit that issues nothing for the service `mute`. -/
def refusingToolkit : Toolkit :=
  { CertificateRun.plainToolkit with
    expiry := fun _ => .ok 7
    issue := fun request key signing ca now =>
      if request.commonName = "mute" then pure (.error (.internal "mute"))
      else CertificateRun.plainToolkit.issue request key signing ca now }

/-- Another authority is imported, and the issuance to the second subscription fails: the first and the
third are handed a bundle, and the second stays as it was.  Otherwise all three had been handed one. -/
theorem perform_except_mute :
    let o := Occasion.install "key" ["imported"]
    let r := o.perform refusingToolkit 0 trio
    let r' := o.perform CertificateRun.plainToolkit 0 trio
    o.failures refusingToolkit 0 trio = [1] ∧ r.2 = .settled (.ok ()) ∧ r.2 = r'.2 ∧
      (∀ e ∈ trio.subscriptions.tracked, e.1 = 1 → e ∈ r.1.subscriptions.tracked) ∧
      ∃ called called', r.1.subscriptions.delivered = trio.subscriptions.delivered ++ called ∧
        r'.1.subscriptions.delivered = trio.subscriptions.delivered ++ called' ∧
        called.map (·.number) = [0, 2] ∧
        called.map (·.number) = (called'.map (·.number)).filter (fun n => n ∉ [1]) := by
  intro o r r'
  have hnumbered : trio.subscriptions.Numbered := by
    unfold Subscriptions.Numbered
    decide +kernel
  have hfacts : trio.subscriptions.settings.rotationDisabled = false ∧
      o.failures refusingToolkit 0 trio = [1] ∧ o.concerned refusingToolkit 0 trio = [0, 1, 2] ∧
      o.failures CertificateRun.plainToolkit 0 trio = [] ∧
      r.1.authority.chain = ["imported"] ∧ trio.authority.chain ≠ ["imported"] := by
    decide +kernel
  obtain ⟨hrotating, hfailures, hconcerned, hnone, hchain, hother⟩ := hfacts
  obtain ⟨called, hhanded, -, hnumbers, hstay, ⟨-, -, hanswer⟩, hunfailing⟩ :=
    perform_except_failures refusingToolkit 0 trio hnumbered hrotating o
  obtain ⟨called', hhanded', hnumbers', -, -, -, hsame⟩ :=
    hunfailing CertificateRun.plainToolkit.issue CertificateRun.plainToolkit.expiry hnone
  rw [hfailures] at hnumbers hstay hnumbers'
  rw [hconcerned] at hnumbers
  refine ⟨hfailures, hanswer ?_, hsame nofun, fun e he hn => (hstay e he ?_).2, called, called',
    hhanded.delivered, hhanded'.delivered, hnumbers, hnumbers'⟩
  · show r.1.authority.chain ≠ _
    rw [hchain]
    exact hother.symm
  · exact List.mem_singleton.2 hn

end Occasion

end DeviceAccess
