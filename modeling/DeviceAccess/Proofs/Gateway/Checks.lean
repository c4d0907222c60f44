import DeviceAccess.Proofs.Gateway.CertificateRuns
import DeviceAccess.Proofs.Leaf.Expiry

/-!
# Checks of certificates

A check goes over the subscriptions whose last certificate ends within a day
(`Subscriptions.EndsWithinDay`) and answers how many issuances succeeded.  If rotation is enabled, each
of these subscriptions is handed a bundle, unless its issuance fails, and the answer is how many bundles
were handed over.  If it is disabled, they all keep what they have, which counts as success.  So the
answer is the number of bundles exactly if rotation is enabled or no certificate ends within a day
(`Gateway.renew_counts_handed_iff`).
-/

namespace DeviceAccess

/-- A certificate that is due is kept exactly if rotation is disabled. -/
theorem Subscription.keeps_of_isDue {s : Subscription} {millis : Int} (h : s.isDue millis = true)
    (settings : LeafSettings) : s.keeps settings = settings.rotationDisabled := by
  obtain ⟨expiry, hexpiry, -⟩ := isDue_iff.1 h
  unfold keeps
  rw [hexpiry]
  exact Bool.and_true _

namespace Subscriptions

/-- The subscription of number `n` has a certificate that ends at most a day after a time, in
milliseconds, or has ended before. -/
def EndsWithinDay (m : Subscriptions) (millis : Int) (n : Nat) : Prop :=
  ∃ (s : Subscription) (expiry : Nat), (n, s) ∈ m.tracked ∧ s.expiry = some expiry ∧
    expiry * 1000 - millis ≤ 24 * 60 * 60 * 1000

variable {m : Subscriptions} {millis : Int} {n : Nat}

theorem endsWithinDay_iff :
    m.EndsWithinDay millis n ↔ n ∈ (m.tracked.filter fun e => e.2.isDue millis).map (·.1) := by
  unfold EndsWithinDay
  simp only [List.mem_map, List.mem_filter, Subscription.isDue_iff]
  constructor
  · rintro ⟨s, expiry, hs, hend⟩
    exact ⟨(n, s), ⟨hs, expiry, hend⟩, rfl⟩
  · rintro ⟨e, ⟨he, expiry, hend⟩, rfl⟩
    exact ⟨e.2, expiry, he, hend⟩

/-- Of the certificates that are due some are kept, unless rotation is enabled or none is due. -/
theorem filter_isDue_keeps_eq_nil_iff :
    (m.tracked.filter fun e => e.2.isDue millis && e.2.keeps m.settings) = [] ↔
      m.settings.rotationDisabled = false ∨ ∀ n, ¬m.EndsWithinDay millis n := by
  have hkept : (m.tracked.filter fun e => e.2.isDue millis && e.2.keeps m.settings) =
      m.tracked.filter fun e => e.2.isDue millis && m.settings.rotationDisabled := by
    refine List.filter_congr fun e _ => ?_
    cases hdue : e.2.isDue millis with
    | true => rw [Subscription.keeps_of_isDue hdue]
    | false => rfl
  simp only [hkept, endsWithinDay_iff]
  rw [← List.eq_nil_iff_forall_not_mem, List.map_eq_nil_iff]
  cases m.settings.rotationDisabled with
  | true => simp
  | false => simp

end Subscriptions

namespace Gateway

/-- **What a check counts.**  A check answers the number of bundles that it hands over exactly if
rotation is enabled or no certificate ends within a day.  If rotation is enabled and no issuance fails,
it hands one bundle to each subscription whose certificate ends within a day, and none to any other. -/
theorem renew_counts_handed_iff (tk : Toolkit) (now : Int) {g : Gateway}
    (hm : g.subscriptions.Numbered) (millis : Int) :
    let m := g.subscriptions
    let r := g.renew tk now millis
    ∃ called, Subscriptions.Handed tk g.authority m r.1.subscriptions called ∧
      (r.2 = called.length ↔
        m.settings.rotationDisabled = false ∨ ∀ n, ¬m.EndsWithinDay millis n) ∧
      (m.settings.rotationDisabled = false →
        m.failures tk now g.authority (fun s => s.isDue millis) g.world = [] →
          (called.map (·.number)).Nodup ∧
            ∀ n, n ∈ called.map (·.number) ↔ m.EndsWithinDay millis n) := by
  intro m r
  obtain ⟨called, hhanded, -, -, hcount⟩ := Subscriptions.reissue_handed_except tk now
    g.authority hm (fun s => s.isDue millis) g.world
  refine ⟨called, hhanded, ?_, fun hrotating hnone => ?_⟩
  · rw [← Subscriptions.filter_isDue_keeps_eq_nil_iff, ← List.length_eq_zero_iff]
    have hr : r.2 = called.length +
        (m.tracked.filter fun e => e.2.isDue millis && e.2.keeps m.settings).length := hcount
    omega
  · obtain ⟨called', hhanded', hnumbers, -⟩ := Subscriptions.reissue_handed_of_rotating tk now
      g.authority hm hrotating (fun s => s.isDue millis) g.world
    obtain rfl : called' = called :=
      List.append_cancel_left (hhanded'.delivered.symm.trans hhanded.delivered)
    have hall : called'.map (·.number) = (m.tracked.filter fun e => e.2.isDue millis).map (·.1) := by
      rw [hnumbers]
      exact List.filter_eq_self.2 fun n _ => by rw [hnone]; rfl
    rw [hall]
    exact ⟨Subscriptions.nodup_tracked_filter hm _, fun n => Subscriptions.endsWithinDay_iff.symm⟩

/-! ### Two servers and a check -/

/-- Certificates that end the later the longer their text is. -/
def unevenToolkit : Toolkit :=
  { CertificateRun.plainToolkit with expiry := fun text => .ok (100000 * text.length) }

/-- A gateway with an authority and two servers, of which the first one's certificate ends first. -/
def uneven : Gateway :=
  CertificateRun.run unevenToolkit (.new CertificateRun.emptyWorld ⟨"/work"⟩ .standard)
    [.generate 0 .ecdsaP256, .subscribe 0 ⟨"a", .server⟩ (.caller "a"),
      .subscribe 0 ⟨"bb", .server⟩ (.caller "bb")]

/-- A day before its end the first certificate is renewed, and the other one is not. -/
theorem renew_counts_uneven :
    let r := uneven.renew unevenToolkit 0 2213600000
    ∃ called, r.1.subscriptions.delivered = uneven.subscriptions.delivered ++ called ∧
      r.2 = called.length ∧ 0 ∈ called.map (·.number) ∧ 1 ∉ called.map (·.number) := by
  intro r
  have hnumbered : uneven.subscriptions.Numbered := by
    unfold Subscriptions.Numbered
    decide +kernel
  have hfacts : uneven.subscriptions.settings.rotationDisabled = false ∧
      uneven.subscriptions.failures unevenToolkit 0 uneven.authority (fun s => s.isDue 2213600000)
        uneven.world = [] ∧
      (uneven.subscriptions.tracked.filter fun e => e.2.isDue 2213600000).map (·.1) = [0] := by
    decide +kernel
  obtain ⟨hrotating, hnone, hdue⟩ := hfacts
  obtain ⟨called, hhanded, hcount, hcalled⟩ :=
    renew_counts_handed_iff unevenToolkit 0 hnumbered 2213600000
  obtain ⟨-, hnumbers⟩ := hcalled hrotating hnone
  refine ⟨called, hhanded.delivered, hcount.2 (.inl hrotating), ?_, ?_⟩
  · rw [hnumbers, Subscriptions.endsWithinDay_iff, hdue]
    exact List.mem_singleton_self 0
  · rw [hnumbers, Subscriptions.endsWithinDay_iff, hdue]
    exact fun h => nomatch List.mem_singleton.1 h

/-- A gateway with an authority and a server that keeps its certificate, since rotation is disabled. -/
def resting : Gateway :=
  CertificateRun.run CertificateRun.plainToolkit (.new CertificateRun.emptyWorld ⟨"/work"⟩ .standard)
    [.generate 0 .ecdsaP256, .subscribe 0 CertificateRun.broker (.caller "broker"),
      .configure { LeafSettings.standard with rotationDisabled := true }]

/-- The server's certificate has ended.  A check hands nothing over and answers one renewal. -/
theorem renew_counts_kept :
    let r := resting.renew CertificateRun.plainToolkit 0 0
    r.1.subscriptions.delivered = resting.subscriptions.delivered ∧ r.2 = 1 ∧
      ¬∃ called, r.1.subscriptions.delivered = resting.subscriptions.delivered ++ called ∧
        r.2 = called.length := by
  intro r
  have hkept : r.1.subscriptions.delivered = resting.subscriptions.delivered ∧ r.2 = 1 := by
    decide +kernel
  refine ⟨hkept.1, hkept.2, ?_⟩
  rintro ⟨called, hcalled, hcount⟩
  rw [hkept.1, List.self_eq_append_right] at hcalled
  rw [hkept.2, hcalled] at hcount
  cases hcount

end Gateway

end DeviceAccess
