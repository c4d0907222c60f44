import DeviceAccess.Proofs.Gateway.Checks
import DeviceAccess.Proofs.Gateway.Renewals

/-!
# Checks that come again

A certificate is renewed from a day before its end on, and the shortest validity is a minute.  So a
certificate is due as soon as it is issued, exactly if it is valid for at most a day
(`Subscription.isDue_renewed_iff`).

After a check of which every renewal succeeds, the subscriptions that were due have certificates that
start with the check, and all others are as they were (`Subscriptions.tracked_reissue`).  A second check
at the same reading of the clock therefore renews those of the first whose new certificates are valid
for at most a day, and changes nothing if there are none (`Gateway.renew_again`).
-/

namespace DeviceAccess

/-- Certificates of a kind are valid for at most a day. -/
def LeafSettings.Brief (settings : LeafSettings) (kind : CertificateKind) : Prop :=
  (settings.validity kind).toNat ≤ 24 * 60 * 60

instance LeafSettings.decidableBrief (settings : LeafSettings) (kind : CertificateKind) :
    Decidable (settings.Brief kind) :=
  inferInstanceAs (Decidable ((_ : Nat) ≤ _))

namespace Subscription

/-- The subscription with a certificate that is issued at a time, in seconds. -/
def renewed (s : Subscription) (settings : LeafSettings) (now : Nat) : Subscription :=
  { s with expiry := some (now + (settings.validity s.kind).toNat) }

/-- An issuance leaves the subscription as it was, or with a certificate of that time. -/
theorem issue_renewed {tk : Toolkit} (hdates : tk.DatesCertificates) (now : Nat)
    (authority : AuthorityStore) (settings : LeafSettings) (s : Subscription) (w : World)
    (addresses : List HostAddress) :
    let i := s.issue tk now authority settings w addresses
    (i.delivered = none ∧ (s.keeps settings = false → i.result ≠ .ok ())) ∨
      i.subscription = s.renewed settings now := by
  intro i
  rcases s.issue_dated tk now authority settings w addresses with
    ⟨-, hnone, hresult⟩ | ⟨ca, b, expiry, entropy, hsubscription, -, hexpiry, hissue⟩
  · exact .inl ⟨hnone, hresult⟩
  · obtain rfl := hdates _ _ _ _ _ _ _ _ hissue hexpiry
    exact .inr hsubscription

/-- A certificate is due as soon as it is issued, exactly if it is valid for at most a day. -/
theorem isDue_renewed_iff {s : Subscription} {settings : LeafSettings} {millis : Nat} :
    (s.renewed settings (millis / 1000)).isDue millis = true ↔ settings.Brief s.kind := by
  unfold LeafSettings.Brief
  rw [isDue_iff]
  constructor
  · rintro ⟨expiry, hexpiry, hsoon⟩
    obtain rfl := Option.some.inj hexpiry
    omega
  · intro hbrief
    exact ⟨_, rfl, by omega⟩

end Subscription

namespace Subscriptions

section
variable {tk : Toolkit} {authority : AuthorityStore} {m : Subscriptions} {w : World}
  {now millis : Nat}

/-- After an issuance that succeeds its subscription has a new certificate. -/
theorem tracked_issueTo (hdates : tk.DatesCertificates)
    (hrotating : m.settings.rotationDisabled = false) (hm : m.Numbered) {e : Nat × Subscription}
    (he : e ∈ m.tracked) (hok : (issueTo tk now authority m w e).2.2 = .ok ()) :
    (issueTo tk now authority m w e).1.tracked =
      m.tracked.map fun e' => if e'.1 = e.1 then (e'.1, e'.2.renewed m.settings now) else e' := by
  have hrenewed : (e.2.issue tk now authority m.settings w m.reachability.all.toList).subscription =
      e.2.renewed m.settings now := by
    rcases e.2.issue_renewed hdates now authority m.settings w m.reachability.all.toList with
      ⟨-, hresult⟩ | hsubscription
    · exact absurd hok (hresult (Subscription.keeps_of_rotating hrotating e.2))
    · exact hsubscription
  unfold issueTo record
  simp only
  rw [hrenewed]
  refine List.map_congr_left fun e' he' => ?_
  split
  · next hnumber =>
      obtain rfl := hm.eq_of_mem he he' hnumber.symm
      rfl
  · rfl

/-- After issuances that all succeed their subscriptions have new certificates. -/
theorem tracked_issueEach (hdates : tk.DatesCertificates)
    (hrotating : m.settings.rotationDisabled = false) (hm : m.Numbered) {n : Nat}
    {es : List (Nat × Subscription)} (hes : ∀ e ∈ es, e ∈ m.tracked)
    (hnodup : (es.map (·.1)).Nodup)
    (hall : (issueEach tk now authority (m, w, n) es).2.2 = n + es.length) :
    (issueEach tk now authority (m, w, n) es).1.tracked = m.tracked.map fun e =>
      if e.1 ∈ es.map (·.1) then (e.1, e.2.renewed m.settings now) else e := by
  induction es generalizing m w n with
  | nil =>
      refine (List.map_id m.tracked).symm.trans (List.map_congr_left fun e _ => ?_)
      exact (if_neg List.not_mem_nil).symm
  | cons e es ih =>
      rw [List.length_cons] at hall
      rcases issueTo_cases tk now authority w hm (hes e List.mem_cons_self) with
        ⟨w', f, h⟩ | ⟨m', w', called, h, hhanded, -, hothers⟩
      · rw [issueEach_of_error h] at hall
        have hle := count_issueEach_le tk now authority m w' n es
        omega
      · have hok : (issueTo tk now authority m w e).2.2 = .ok () := by rw [h]
        have hfirst := tracked_issueTo hdates hrotating hm (hes e List.mem_cons_self) hok
        rw [h] at hfirst
        rw [issueEach_of_ok h] at hall ⊢
        rw [ih (hhanded.settings ▸ hrotating) (hhanded.numbered hm) (tracked_later hes hnodup hothers)
          hnodup.of_cons (hall.trans (by omega)), hfirst, hhanded.settings, List.map_map]
        refine List.map_congr_left fun e' _ => ?_
        have hlater : e.1 ∉ es.map (·.1) := (List.nodup_cons.1 (List.map_cons ▸ hnodup)).1
        simp only [Function.comp_apply, List.map_cons, List.mem_cons]
        by_cases hnumber : e'.1 = e.1
        · simp only [hnumber, if_true, true_or, hlater, if_false]
        · simp only [hnumber, if_false, false_or]

/-- **After a check.**  If every issuance succeeds, those that were due have new certificates. -/
theorem tracked_reissue (hdates : tk.DatesCertificates)
    (hrotating : m.settings.rotationDisabled = false) (hm : m.Numbered) {due : Subscription → Bool}
    (hall : AllIssued tk now authority due m w) :
    (reissue tk now authority due m w).1.tracked = m.tracked.map fun e =>
      if due e.2 then (e.1, e.2.renewed m.settings now) else e := by
  unfold AllIssued at hall
  rw [reissue_eq_issueEach] at hall ⊢
  rw [tracked_issueEach hdates hrotating hm (fun e he => List.mem_of_mem_filter he)
    (nodup_tracked_filter hm _) (hall.trans (Nat.zero_add _).symm)]
  refine List.map_congr_left fun e he => ?_
  have hdue : e.1 ∈ (m.tracked.filter fun e => due e.2).map (·.1) ↔ due e.2 = true := by
    constructor
    · intro hmem
      obtain ⟨e', he', hnumber⟩ := List.mem_map.1 hmem
      obtain ⟨he', hdue⟩ := List.mem_filter.1 he'
      exact hm.eq_of_mem he' he hnumber ▸ hdue
    · exact fun hdue => List.mem_map_of_mem (List.mem_filter.2 ⟨he, hdue⟩)
  simp only [hdue]

/-- The subscription of number `n` is due, and the certificates of its kind are valid for at most a
day. -/
def DueBriefly (m : Subscriptions) (millis : Int) (n : Nat) : Prop :=
  ∃ s, (n, s) ∈ m.tracked ∧ s.isDue millis = true ∧ m.settings.Brief s.kind

/-- After a check those are due that were due before and whose certificates are brief. -/
theorem endsWithinDay_renew_iff (hdates : tk.DatesCertificates)
    (hrotating : m.settings.rotationDisabled = false) (hm : m.Numbered)
    (hall : AllIssued tk (millis / 1000 : Nat) authority (fun s => s.isDue millis) m w) {n : Nat} :
    (renew tk (millis / 1000 : Nat) authority m w millis).1.EndsWithinDay millis n ↔
      m.DueBriefly millis n := by
  unfold DueBriefly
  simp only [endsWithinDay_iff, List.mem_map, List.mem_filter, Prod.exists, exists_and_right,
    exists_eq_right]
  unfold renew
  rw [tracked_reissue hdates hrotating hm hall]
  simp only [List.mem_map, Prod.exists]
  constructor
  · rintro ⟨s', ⟨k, s, hs, heq⟩, hdue'⟩
    split at heq
    · next hdue =>
        obtain ⟨rfl, rfl⟩ := Prod.mk.inj heq
        exact ⟨s, hs, hdue, Subscription.isDue_renewed_iff.1 hdue'⟩
    · next hdue =>
        obtain ⟨rfl, rfl⟩ := Prod.mk.inj heq
        exact absurd hdue' hdue
  · rintro ⟨s, hs, hdue, hbrief⟩
    exact ⟨_, ⟨n, s, hs, if_pos hdue⟩, Subscription.isDue_renewed_iff.2 hbrief⟩

end

end Subscriptions

namespace Gateway

/-- A check that finds nobody due changes nothing. -/
theorem renew_of_nobody (tk : Toolkit) (now : Int) {g : Gateway} {millis : Int}
    (hnone : ∀ n, ¬g.subscriptions.EndsWithinDay millis n) : g.renew tk now millis = (g, 0) := by
  have hnobody : ∀ e ∈ g.subscriptions.tracked, (fun s : Subscription => s.isDue millis) e.2 = false := by
    intro e he
    by_contra hsoon
    refine hnone e.1 (Subscriptions.endsWithinDay_iff.2 ?_)
    exact List.mem_map_of_mem (List.mem_filter.2 ⟨he, eq_true_of_ne_false hsoon⟩)
  unfold renew Subscriptions.renew
  rw [Subscriptions.reissue_nobody tk now g.authority hnobody]

/-- **Two checks at one time.**  Take a check of which no issuance fails, while rotation is enabled.  It
hands one bundle to each subscription whose certificate ends within a day, and to no other.

* For whatever reason a certificate is issued, it is due at that time exactly if certificates of its
  kind are valid for at most a day.
* So the subscriptions that are due after the check are those of the check whose certificates are valid
  for at most a day.  If there are none, a second check at the same time changes nothing.
* Otherwise it hands one bundle to each of them again, if no issuance fails, and to no other. -/
theorem renew_again (tk : Toolkit) (hdates : tk.DatesCertificates) {g : Gateway}
    (hm : g.subscriptions.Numbered) (hrotating : g.subscriptions.settings.rotationDisabled = false)
    (millis : Nat)
    (hall : g.subscriptions.AllIssued tk (millis / 1000 : Nat) g.authority (fun s => s.isDue millis)
      g.world) :
    let m := g.subscriptions
    let now : Int := (millis / 1000 : Nat)
    let first := (g.renew tk now millis).1
    let second := first.renew tk now millis
    (∃ called, Subscriptions.Handed tk g.authority m first.subscriptions called ∧
      (called.map (·.number)).Nodup ∧ ∀ n, n ∈ called.map (·.number) ↔ m.EndsWithinDay millis n) ∧
    (∀ (authority : AuthorityStore) (settings : LeafSettings) (s : Subscription) (w : World)
      (addresses : List HostAddress),
      let i := s.issue tk now authority settings w addresses
      i.delivered ≠ none → (i.subscription.isDue millis = true ↔ settings.Brief s.kind)) ∧
    (∀ n, first.subscriptions.EndsWithinDay millis n ↔ m.DueBriefly millis n) ∧
    ((∀ n, ¬m.DueBriefly millis n) → second = (first, 0)) ∧
    (first.subscriptions.AllIssued tk now first.authority (fun s => s.isDue millis) first.world →
      ∃ again, Subscriptions.Handed tk g.authority first.subscriptions second.1.subscriptions again ∧
        second.2 = again.length ∧ (again.map (·.number)).Nodup ∧
        ∀ n, n ∈ again.map (·.number) ↔ m.DueBriefly millis n) := by
  intro m now first second
  have hdue : ∀ n, first.subscriptions.EndsWithinDay millis n ↔ m.DueBriefly millis n :=
    fun n => Subscriptions.endsWithinDay_renew_iff hdates hrotating hm hall
  obtain ⟨called, hhanded, -, hcalled⟩ := renew_counts_handed_iff tk now hm millis
  have hfirst := hcalled hrotating (Subscriptions.allIssued_iff.1 hall)
  refine ⟨⟨called, hhanded, hfirst⟩, ?_, hdue, ?_, ?_⟩
  · intro authority settings s w addresses i hsome
    rcases s.issue_renewed hdates (millis / 1000) authority settings w addresses with
      ⟨hnone, -⟩ | hsubscription
    · exact absurd hnone hsome
    · have hi : i.subscription = s.renewed settings (millis / 1000) := hsubscription
      rw [hi]
      exact Subscription.isDue_renewed_iff
  · intro hnone
    exact renew_of_nobody tk now fun n hn => hnone n ((hdue n).1 hn)
  · intro hall'
    have hrotating' : first.subscriptions.settings.rotationDisabled = false :=
      (congrArg LeafSettings.rotationDisabled hhanded.settings).trans hrotating
    obtain ⟨again, hagain, hcount, hnumbers⟩ :=
      renew_counts_handed_iff tk now (hhanded.numbered hm) millis
    obtain ⟨hnodup, hmem⟩ := hnumbers hrotating' (Subscriptions.allIssued_iff.1 hall')
    exact ⟨again, hagain, hcount.2 (.inl hrotating'), hnodup, fun n => (hmem n).trans (hdue n)⟩

/-! ### A server for a minute and a client for a week -/

/-- Certificates that spell their end in days, minutes and seconds. -/
def spellingToolkit : Toolkit :=
  { CertificateRun.plainToolkit with
    expiry := fun text => .ok (text.toList.count 'd' * 86400 + text.toList.count 'm' * 60 +
      text.toList.count 's')
    issue := fun request _ _ _ now =>
      let seconds := (now + request.validity).toNat
      pure (.ok (String.ofList (List.replicate (seconds / 86400) 'd' ++
        List.replicate (seconds % 86400 / 60) 'm' ++ List.replicate (seconds % 60) 's'))) }

theorem datesCertificates_spellingToolkit : spellingToolkit.DatesCertificates := by
  intro request key signing authorityKey now entropy certificate expiry hissue hexpiry
  obtain rfl := Except.ok.inj hissue
  obtain rfl := Except.ok.inj hexpiry
  simp only [String.toList_ofList, List.count_append, List.count_replicate]
  simp
  omega

/-- A gateway with an authority, a server whose certificates are valid for a minute and a client whose
certificates are valid for a week. -/
def minuteAndWeek : Gateway :=
  CertificateRun.run spellingToolkit
    (.new CertificateRun.emptyWorld ⟨"/work"⟩ TimedRun.shortLived)
    [.generate 0 .ecdsaP256, .subscribe 0 CertificateRun.broker (.caller "broker"),
      .subscribe 0 ⟨"bridge", .client⟩ (.caller "bridge")]

/-- A day before the end of the client's certificate both are renewed, and then the server alone. -/
theorem renew_again_minuteAndWeek :
    let first := (minuteAndWeek.renew spellingToolkit 518400 518400000).1
    let second := first.renew spellingToolkit 518400 518400000
    minuteAndWeek.subscriptions.EndsWithinDay 518400000 0 ∧
      minuteAndWeek.subscriptions.EndsWithinDay 518400000 1 ∧
      first.subscriptions.EndsWithinDay 518400000 0 ∧
      ¬first.subscriptions.EndsWithinDay 518400000 1 ∧
      ∃ again, second.1.subscriptions.delivered = first.subscriptions.delivered ++ again ∧
        second.2 = again.length ∧ 0 ∈ again.map (·.number) ∧ 1 ∉ again.map (·.number) := by
  intro first second
  have hnumbered : minuteAndWeek.subscriptions.Numbered := by
    unfold Subscriptions.Numbered
    decide +kernel
  have hfacts : minuteAndWeek.subscriptions.settings.rotationDisabled = false ∧
      Subscriptions.AllIssued spellingToolkit (518400000 / 1000 : Nat) minuteAndWeek.authority
        (fun s => s.isDue 518400000) minuteAndWeek.subscriptions minuteAndWeek.world ∧
      Subscriptions.AllIssued spellingToolkit 518400 first.authority
        (fun s => s.isDue 518400000) first.subscriptions first.world := by
    unfold Subscriptions.AllIssued
    decide +kernel
  have hdue : (minuteAndWeek.subscriptions.tracked.filter fun e => e.2.isDue 518400000).map (·.1) =
      [0, 1] ∧ (first.subscriptions.tracked.filter fun e => e.2.isDue 518400000).map (·.1) = [0] := by
    decide +kernel
  obtain ⟨hrotating, hall, hall'⟩ := hfacts
  obtain ⟨-, -, hbriefly, -, hsecond⟩ := renew_again spellingToolkit
    datesCertificates_spellingToolkit hnumbered hrotating 518400000 hall
  obtain ⟨again, hhanded, hcount, -, hnumbers⟩ := hsecond hall'
  have hagain : ∀ n, n ∈ again.map (·.number) ↔ n ∈ [0] := fun n =>
    (hnumbers n).trans ((hbriefly n).symm.trans (hdue.2 ▸ Subscriptions.endsWithinDay_iff))
  refine ⟨?_, ?_, ?_, ?_, again, hhanded.delivered, hcount, (hagain 0).2 ?_, fun h => ?_⟩
  · rw [Subscriptions.endsWithinDay_iff, hdue.1]
    decide
  · rw [Subscriptions.endsWithinDay_iff, hdue.1]
    decide
  · rw [Subscriptions.endsWithinDay_iff, hdue.2]
    decide
  · rw [Subscriptions.endsWithinDay_iff, hdue.2]
    decide
  · decide
  · exact absurd ((hagain 1).1 h) (by decide)

/-- The shortest validity in force is a minute.  The certificate of a server that subscribes with it is
due at once, and due again as soon as a check has renewed it. -/
theorem renew_again_brief :
    let start := CertificateRun.run spellingToolkit
      (.new CertificateRun.emptyWorld ⟨"/work"⟩ TimedRun.shortLived)
      [.generate 0 .ecdsaP256, .subscribe 0 CertificateRun.broker (.caller "broker")]
    let first := start.renew spellingToolkit 0 0
    let second := first.1.renew spellingToolkit 0 0
    start.subscriptions.settings = TimedRun.shortLived.clamped ∧
      start.subscriptions.settings.rotationDisabled = false ∧
      Subscriptions.AllIssued spellingToolkit 0 start.authority (fun s => s.isDue 0)
        start.subscriptions start.world ∧
      start.subscriptions.EndsWithinDay 0 0 ∧ first.2 = 1 ∧ second.2 = 1 ∧
      second.1.subscriptions.delivered.length = first.1.subscriptions.delivered.length + 1 := by
  intro start first second
  rw [Subscriptions.endsWithinDay_iff]
  unfold Subscriptions.AllIssued
  decide +kernel

end Gateway

end DeviceAccess
