import DeviceAccess.Proofs.Leaf.Registry
import DeviceAccess.Service.Basic

/-!
# How long certificates last

A certificate ends its validity after the time it was issued at, counted in whole seconds
(`Toolkit.DatesCertificates`), and no validity in force is shorter than a minute.  A certificate that is
issued at a reading of the clock therefore outlasts the time until the next check by far, and so does
one that a check leaves alone, since it is not yet due.

`Subscriptions.Lasting` says this of the subscriptions that a predicate names.  To arrange subscriptions
keeps it; an issuance keeps it and adds the subscription that it issues to.  After a check it holds of
all (`Subscriptions.Lasting.renew`).
-/

namespace DeviceAccess

/-- A certificate that is issued at a time, in seconds since the start of 1970, ends its validity
later. -/
def Toolkit.DatesCertificates (tk : Toolkit) : Prop :=
  ∀ (request : Issue.Request) (key : PrivateKey) (signing authorityKey : String) (now : Nat)
    (entropy : Entropy) (certificate : String) (expiry : Nat),
    ((tk.issue request key signing authorityKey now).run entropy).1 = .ok certificate →
      tk.expiry certificate = .ok expiry → expiry = now + request.validity

namespace LeafSettings

/-- No validity is shorter than a minute. -/
def AtLeastMinutes (settings : LeafSettings) : Prop :=
  ∀ kind, 60 ≤ (settings.validity kind).toNat

theorem sixty_le_clampValidity (secs : UInt64) : 60 ≤ (clampValidity secs).toNat := by
  have hmax : ∀ a b : UInt64, a ≤ max a b := by
    intro a b
    show a ≤ if a ≤ b then b else a
    split
    · next h => exact h
    · exact UInt64.le_refl a
  exact UInt64.le_iff_toNat_le.1 (hmax shortestValidity _)

/-- Settings are put in force with validities within their bounds. -/
theorem atLeastMinutes_clamped (settings : LeafSettings) : settings.clamped.AtLeastMinutes := by
  intro kind
  cases kind with
  | server => exact sixty_le_clampValidity _
  | client => exact sixty_le_clampValidity _

end LeafSettings

namespace Subscription

/-- An issuance hands nothing over and changes nothing, or takes note of the end of the certificate that
it hands over. -/
theorem issue_dated (tk : Toolkit) (now : Int) (authority : AuthorityStore) (settings : LeafSettings)
    (s : Subscription) (w : World) (addresses : List HostAddress) :
    let i := s.issue tk now authority settings w addresses
    (i.subscription = s ∧ i.delivered = none ∧ (s.keeps settings = false → i.result ≠ .ok ())) ∨
      ∃ (ca : AuthorityMaterial) (b : Bundle) (expiry : Nat) (entropy : Entropy),
        i.subscription = { s with expiry := some expiry } ∧
        i.delivered = some b ∧ tk.expiry b.certificate = .ok expiry ∧
        ((tk.issue (s.request settings addresses) s.key ca.signing ca.key now).run entropy).1 =
          .ok b.certificate := by
  intro i
  have hi : i = s.issue tk now authority settings w addresses := rfl
  unfold issue World.draw at hi
  split at hi
  · next hkeeps =>
      rw [hi]
      exact .inl ⟨rfl, rfl, fun h => absurd (hkeeps.symm.trans h) nofun⟩
  · split at hi
    · rw [hi]
      exact .inl ⟨rfl, rfl, nofun⟩
    · next ca hca =>
        rcases hissue : (tk.issue (s.request settings addresses) s.key ca.signing ca.key now).run
          w.entropy with ⟨e | certificate, entropy⟩
        · rw [hissue] at hi
          rw [hi]
          exact .inl ⟨rfl, rfl, nofun⟩
        · rw [hissue] at hi
          simp only at hi
          cases hexpiry : tk.expiry certificate with
          | error e =>
              rw [hexpiry] at hi
              rw [hi]
              exact .inl ⟨rfl, rfl, nofun⟩
          | ok expiry =>
              rw [hexpiry] at hi
              rw [hi]
              exact .inr ⟨ca, _, expiry, w.entropy, rfl, rfl, hexpiry, congrArg Prod.fst hissue⟩

/-- A certificate is due from a day before its end on. -/
theorem isDue_iff {s : Subscription} {millis : Int} :
    s.isDue millis = true ↔
      ∃ expiry : Nat, s.expiry = some expiry ∧ expiry * 1000 - millis ≤ 24 * 60 * 60 * 1000 := by
  unfold isDue renewalReason renewalWindow
  cases s.expiry with
  | none => simp
  | some expiry =>
      simp only [Option.some.injEq, exists_eq_left']
      split
      · next hpast => exact iff_of_true rfl (by omega)
      · split
        · next hsoon => exact iff_of_true rfl hsoon
        · next hlater => exact iff_of_false nofun hlater

/-- A certificate that is not due lasts for more than a day. -/
theorem day_lt_of_not_isDue {s : Subscription} {millis expiry : Nat} (hexpiry : s.expiry = some expiry)
    (hdue : s.isDue millis = false) : millis + 86400000 < 1000 * expiry := by
  by_contra hsoon
  refine Bool.false_ne_true (hdue.symm.trans (isDue_iff.2 ⟨expiry, hexpiry, ?_⟩))
  omega

end Subscription

namespace Subscriptions

/-- The end of each certificate is known, and the certificates of the subscriptions that `who` names
last past a reading of the clock, in milliseconds. -/
structure Lasting (tk : Toolkit) (who : Nat → Prop) (time : Nat) (m : Subscriptions) : Prop where
  minutes : m.settings.AtLeastMinutes
  dated : ∀ n s expiry, (n, s) ∈ m.tracked → s.expiry = some expiry →
    ∃ b, m.last? n = some b ∧ tk.expiry b.certificate = .ok expiry
  lasts : ∀ n s expiry, (n, s) ∈ m.tracked → s.expiry = some expiry → who n → time < 1000 * expiry

section
variable {tk : Toolkit} {authority : AuthorityStore} {who who' : Nat → Prop}
  {m m' : Subscriptions} {e : Nat × Subscription} {time millis : Nat}

theorem lasting_empty (tk : Toolkit) (who : Nat → Prop) (time : Nat) (settings : LeafSettings) :
    (empty settings).Lasting tk who time where
  minutes := settings.atLeastMinutes_clamped
  dated := nofun
  lasts := nofun

theorem Lasting.mono (h : m.Lasting tk who time)
    (hwho : ∀ n s, (n, s) ∈ m.tracked → who' n → who n) : m.Lasting tk who' time where
  minutes := h.minutes
  dated := h.dated
  lasts n s expiry hs hexpiry hn := h.lasts n s expiry hs hexpiry (hwho n s hs hn)

/-! ### Arranging subscriptions -/

/-- Subscriptions may go, and new ones come that have no certificate yet. -/
theorem Lasting.arrange (h : m.Lasting tk who time)
    (htracked : ∀ e ∈ m'.tracked, e ∈ m.tracked ∨ e.2.expiry = none)
    (hdelivered : m'.delivered = m.delivered) (hsettings : m'.settings = m.settings) :
    m'.Lasting tk who time where
  minutes := hsettings ▸ h.minutes
  dated n s expiry hs hexpiry := by
    unfold last?
    rw [hdelivered]
    rcases htracked _ hs with hs | hnone
    · exact h.dated n s expiry hs hexpiry
    · cases hnone.symm.trans hexpiry
  lasts n s expiry hs hexpiry := by
    rcases htracked _ hs with hs | hnone
    · exact h.lasts n s expiry hs hexpiry
    · cases hnone.symm.trans hexpiry

theorem Lasting.join (h : m.Lasting tk who time) {s : Subscription} (hs : s.expiry = none) :
    (m.join s).Lasting tk who time := by
  obtain ⟨-, hdelivered, hsettings, -⟩ := frame_join m s
  refine h.arrange (fun e he => ?_) hdelivered hsettings
  have htrack : e ∈ (m.track s).tracked := by
    unfold Subscriptions.join putLive at he
    simp only at he
    split at he
    · exact List.mem_of_mem_filter he
    · exact he
  rcases List.mem_append.1 htrack with he | he
  · exact .inl he
  · exact .inr (List.mem_singleton.1 he ▸ hs)

theorem Lasting.unsubscribe (h : m.Lasting tk who time) (key : SubscriptionKey) :
    (m.unsubscribe key).1.Lasting tk who time := by
  obtain ⟨-, hdelivered, hsettings, -⟩ := frame_unsubscribe m key
  refine h.arrange (fun e he => .inl ?_) hdelivered hsettings
  unfold Subscriptions.unsubscribe at he
  split at he
  · exact List.mem_of_mem_filter he
  · exact he

/-- New settings come into force with validities within their bounds. -/
theorem Lasting.configure (h : m.Lasting tk who time) (settings : LeafSettings) :
    (m.configure settings).Lasting tk who time where
  minutes := settings.atLeastMinutes_clamped
  dated := h.dated
  lasts := h.lasts

/-! ### Issuing -/

theorem mem_tracked_record_iff (he : e ∈ m.tracked) {i : Issuance} {n : Nat} {s : Subscription} :
    (n, s) ∈ (m.record e.1 i).tracked ↔
      if n = e.1 then s = i.subscription else (n, s) ∈ m.tracked := by
  have hrecord : (m.record e.1 i).tracked =
      m.tracked.map fun e' => if e'.1 = e.1 then (e.1, i.subscription) else e' := rfl
  rw [hrecord, List.mem_map]
  split
  · next hn =>
      subst hn
      constructor
      · rintro ⟨e', -, heq⟩
        split at heq
        · exact (Prod.mk.inj heq).2.symm
        · next hne => exact absurd (congrArg Prod.fst heq) hne
      · rintro rfl
        exact ⟨e, he, if_pos rfl⟩
  · next hn =>
      constructor
      · rintro ⟨e', he', heq⟩
        split at heq
        · exact absurd (congrArg Prod.fst heq).symm hn
        · exact heq ▸ he'
      · intro hs
        exact ⟨(n, s), hs, if_neg hn⟩

/-- An issuance at a reading of the clock that succeeds leaves a certificate that lasts past the next
check. -/
theorem Lasting.issueTo (hdates : tk.DatesCertificates)
    (hrotating : m.settings.rotationDisabled = false) (htime : time ≤ millis + Service.renewalPeriod)
    (hm : m.Numbered) (he : e ∈ m.tracked) (h : m.Lasting tk who time)
    (authority : AuthorityStore) (w : World) :
    let r := issueTo tk (millis / 1000 : Nat) authority m w e
    r.1.Lasting tk who time ∧
      (r.2.2 = .ok () → r.1.Lasting tk (fun n => who n ∨ n = e.1) time) := by
  intro r
  let i := e.2.issue tk (millis / 1000 : Nat) authority m.settings w m.reachability.all.toList
  have hr : r = (m.record e.1 i, i.world, i.result) := rfl
  rcases e.2.issue_dated tk (millis / 1000 : Nat) authority m.settings w m.reachability.all.toList with
    ⟨hsubscription, hdelivered, hresult⟩ |
    ⟨ca, b, expiry, entropy, hsubscription, hdelivered, hexpiry, hissue⟩
  · have hkeeps := Subscription.keeps_of_rotating hrotating e.2
    have hsame : m.record e.1 i = m := record_eq_self hm he hsubscription hdelivered
    rw [hr, hsame]
    exact ⟨h, fun hok => absurd hok (hresult hkeeps)⟩
  · have hlasts : time < 1000 * expiry := by
      have hend := hdates _ _ _ _ _ _ _ _ hissue hexpiry
      have hminute := h.minutes e.2.kind
      unfold Subscription.request at hend
      unfold Service.renewalPeriod at htime
      simp only at hend
      omega
    have hnoted : ∀ x, i.subscription.expiry = some x → expiry = x := by
      intro x hx
      have hexpiry' : i.subscription.expiry = some expiry := congrArg Subscription.expiry hsubscription
      exact Option.some.inj (hexpiry'.symm.trans hx)
    have hlast : (m.record e.1 i).delivered =
        m.delivered ++ [⟨e.1, i.subscription.recipient, b⟩] := by
      have hb : i.delivered = some b := hdelivered
      unfold record
      rw [hb]
    have hnew : (m.record e.1 i).Lasting tk (fun n => who n ∨ n = e.1) time := by
      refine ⟨h.minutes, fun n s x hs hx => ?_, fun n s x hs hx hn => ?_⟩
      · rw [last?_of_append hlast]
        rw [mem_tracked_record_iff he] at hs
        split at hs
        · next heq =>
            obtain rfl := hnoted x (hs ▸ hx)
            exact ⟨b, if_pos heq.symm, hexpiry⟩
        · next hne =>
            rw [if_neg (Ne.symm hne)]
            exact h.dated n s x hs hx
      · rw [mem_tracked_record_iff he] at hs
        split at hs
        · obtain rfl := hnoted x (hs ▸ hx)
          exact hlasts
        · next hne => exact h.lasts n s x hs hx (hn.resolve_right hne)
    rw [hr]
    exact ⟨hnew.mono fun n s _ hn => .inl hn, fun _ => hnew⟩

/-- Issuances that all succeed leave certificates that last past the next check. -/
theorem Lasting.issueEach (hdates : tk.DatesCertificates)
    (hrotating : m.settings.rotationDisabled = false) (htime : time ≤ millis + Service.renewalPeriod)
    (hm : m.Numbered) {w : World} {n : Nat} {es : List (Nat × Subscription)}
    (hes : ∀ e ∈ es, e ∈ m.tracked) (hnodup : (es.map (·.1)).Nodup)
    (hall : (issueEach tk (millis / 1000 : Nat) authority (m, w, n) es).2.2 = n + es.length)
    (h : m.Lasting tk who time) :
    (issueEach tk (millis / 1000 : Nat) authority (m, w, n) es).1.Lasting tk
      (fun n => who n ∨ n ∈ es.map (·.1)) time := by
  induction es generalizing m w n who with
  | nil => exact h.mono fun n s _ hn => hn.resolve_right List.not_mem_nil
  | cons e es ih =>
      rw [List.length_cons] at hall
      have hissued := (h.issueTo hdates hrotating htime hm (hes e List.mem_cons_self)
        authority w).2
      rcases issueTo_cases tk (millis / 1000 : Nat) authority w hm (hes e List.mem_cons_self) with
        ⟨w', f, hr⟩ | ⟨m', w', called, hr, hhanded, -, hothers⟩
      · rw [issueEach_of_error hr] at hall
        have hle := count_issueEach_le tk (millis / 1000 : Nat) authority m w' n es
        omega
      · rw [issueEach_of_ok hr] at hall ⊢
        rw [hr] at hissued
        refine (ih (hhanded.settings ▸ hrotating) (hhanded.numbered hm)
          (tracked_later hes hnodup hothers) hnodup.of_cons
          (hall.trans (by omega)) (hissued rfl)).mono fun k s _ hk => ?_
        rw [List.map_cons, List.mem_cons] at hk
        exact or_assoc.2 hk

/-- Whoever is due is issued a certificate that lasts past the next check. -/
theorem Lasting.reissue (hdates : tk.DatesCertificates)
    (hrotating : m.settings.rotationDisabled = false) (htime : time ≤ millis + Service.renewalPeriod)
    (hm : m.Numbered) {due : Subscription → Bool} {w : World}
    (hall : AllIssued tk (millis / 1000 : Nat) authority due m w) (h : m.Lasting tk who time) :
    (reissue tk (millis / 1000 : Nat) authority due m w).1.Lasting tk
      (fun n => who n ∨ ∃ s, (n, s) ∈ m.tracked ∧ due s = true) time := by
  unfold AllIssued at hall
  rw [reissue_eq_issueEach] at hall ⊢
  refine (h.issueEach hdates hrotating htime hm (fun e he => List.mem_of_mem_filter he)
    (nodup_tracked_filter hm _) (hall.trans (Nat.zero_add _).symm)).mono fun n s _ hn => ?_
  refine hn.imp_right ?_
  rintro ⟨s, hs, hdue⟩
  exact List.mem_map.2 ⟨(n, s), List.mem_filter.2 ⟨hs, hdue⟩, rfl⟩

/-- **Checks.**  If every renewal of a check succeeds, all certificates last past the next check: those
that are renewed, and those that are not yet due. -/
theorem Lasting.renew (hdates : tk.DatesCertificates)
    (hrotating : m.settings.rotationDisabled = false) (htime : time ≤ millis + Service.renewalPeriod)
    (hm : m.Numbered) {w : World}
    (hall : AllIssued tk (millis / 1000 : Nat) authority (fun s => s.isDue millis) m w)
    (h : m.Lasting tk who time) :
    (renew tk (millis / 1000 : Nat) authority m w millis).1.Lasting tk (fun _ => True) time := by
  have hleft : m.Lasting tk (fun n => ∀ s, (n, s) ∈ m.tracked → s.isDue millis = false) time := by
    refine ⟨h.minutes, h.dated, fun n s expiry hs hexpiry hn => ?_⟩
    have hday := Subscription.day_lt_of_not_isDue hexpiry (hn s hs)
    unfold Service.renewalPeriod at htime
    omega
  refine (hleft.reissue hdates hrotating htime hm hall).mono fun n s _ _ => ?_
  by_cases hdue : ∃ s, (n, s) ∈ m.tracked ∧ s.isDue millis = true
  · exact .inr hdue
  · exact .inl fun s hs => Bool.not_eq_true _ ▸ fun h => hdue ⟨s, hs, h⟩

end

end Subscriptions

end DeviceAccess
