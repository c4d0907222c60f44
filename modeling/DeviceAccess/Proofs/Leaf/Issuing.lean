import DeviceAccess.Leaf.Subscriptions
import DeviceAccess.Proofs.Ordered

/-!
# Issuing certificates to subscriptions

An issuance keeps the certificate there is, fails, or hands over a new bundle
(`Subscription.issue_cases`).  It touches nothing of a subscription but the end of its certificate, so
the subscriptions *as they were made* (`Subscriptions.orders`) stay the same over any number of them.

`Subscriptions.Handed` says what a sequence of issuances does to all subscriptions and which bundles it
hands over.  One issuance is such a step, steps can be put together, and so `Subscriptions.reissue`
hands over one bundle to each subscription that is due and does not keep its certificate, except for
those whose issuance fails (`Subscriptions.reissue_handed_except`).
-/

namespace DeviceAccess

namespace Subscription

/-- The name that a subscription stands for. -/
def name (s : Subscription) : SubscriptionKey := ⟨s.service, s.kind⟩

/-- The subscription as it was made, before its first certificate. -/
def made (s : Subscription) : Subscription := { s with expiry := none }

/-- Whether the subscription has a certificate and keeps it. -/
def keeps (s : Subscription) (settings : LeafSettings) : Bool :=
  settings.rotationDisabled && s.expiry.isSome

theorem keeps_of_rotating {settings : LeafSettings} (h : settings.rotationDisabled = false)
    (s : Subscription) : s.keeps settings = false := by
  unfold keeps
  rw [h]
  rfl

/-- The bundle holds a certificate that an authority issued to the subscription for addresses, with
the chain of the authority and the key of the subscription. -/
def Certified (tk : Toolkit) (ca : AuthorityMaterial) (addresses : List HostAddress)
    (s : Subscription) (b : Bundle) : Prop :=
  b.authorities = ca.chain ∧ b.key = s.key.toPem ∧
    ∃ settings now entropy,
      ((tk.issue (s.request settings addresses) s.key ca.signing ca.key now).run entropy).1 =
        .ok b.certificate

/-! ### Names in certificates -/

theorem nodup_namesFor (kind : CertificateKind) (addresses : List HostAddress) :
    (namesFor kind addresses).Nodup := by
  cases kind with
  | server => exact nodup_eraseDups _
  | client => exact List.nodup_nil

/-- A server's certificate names the addresses and `localhost`, a client's names nothing. -/
theorem mem_namesFor_iff {kind : CertificateKind} {addresses : List HostAddress} {x : String} :
    x ∈ namesFor kind addresses ↔ kind = .server ∧ x ≠ "" ∧ (x ∈ addresses ∨ x = "localhost") := by
  cases kind with
  | server =>
      unfold namesFor
      rw [List.mem_eraseDups, List.mem_filter, List.mem_append, List.mem_singleton]
      simp [and_comm]
  | client => simp [namesFor]

/-- The addresses do not matter to a client. -/
theorem Certified.of_client {tk : Toolkit} {ca : AuthorityMaterial} {s : Subscription} {b : Bundle}
    {addresses : List HostAddress} (h : s.Certified tk ca addresses b) (hs : s.kind = .client)
    (addresses' : List HostAddress) : s.Certified tk ca addresses' b := by
  have hrequest : ∀ settings, s.request settings addresses = s.request settings addresses' := by
    intro settings
    unfold request namesFor
    rw [hs]
  obtain ⟨hchain, hkey, settings, now, entropy, hissue⟩ := h
  rw [hrequest] at hissue
  exact ⟨hchain, hkey, settings, now, entropy, hissue⟩

/-! ### One issuance -/

/-- An issuance keeps the certificate there is, fails, or hands over a new bundle. -/
theorem issue_cases (tk : Toolkit) (now : Int) (authority : AuthorityStore) (settings : LeafSettings)
    (s : Subscription) (w : World) (addresses : List HostAddress) :
    let i := s.issue tk now authority settings w addresses
    (s.keeps settings = true ∧ i = ⟨s, w, none, .ok ()⟩) ∨
      s.keeps settings = false ∧
        ((∃ w' e, i = ⟨s, w', none, .error e⟩) ∨
          ∃ w' ca expiry b, authority.material = some ca ∧ s.Certified tk ca addresses b ∧
            i = ⟨{ s with expiry := some expiry }, w', some b, .ok ()⟩) := by
  intro i
  cases hkeeps : s.keeps settings with
  | true => exact .inl ⟨rfl, if_pos hkeeps⟩
  | false =>
      refine .inr ⟨rfl, ?_⟩
      have hi : i = s.issue tk now authority settings w addresses := rfl
      unfold issue at hi
      rw [if_neg (by rw [← keeps, hkeeps]; exact Bool.false_ne_true)] at hi
      unfold AuthorityStore.inForce World.draw at hi
      cases hca : authority.material with
      | none =>
          rw [hca] at hi
          exact .inl ⟨_, _, hi⟩
      | some ca =>
          rw [hca] at hi
          simp only at hi
          rcases hissue : (tk.issue (s.request settings addresses) s.key ca.signing ca.key now).run
            w.entropy with ⟨e | certificate, entropy⟩
          · rw [hissue] at hi
            exact .inl ⟨_, _, hi⟩
          · rw [hissue] at hi
            simp only at hi
            cases hexpiry : tk.expiry certificate with
            | error e =>
                rw [hexpiry] at hi
                exact .inl ⟨_, _, hi⟩
            | ok expiry =>
                rw [hexpiry] at hi
                refine .inr ⟨_, ca, expiry, _, rfl, ?_, hi⟩
                exact ⟨rfl, rfl, settings, now, w.entropy, congrArg Prod.fst hissue⟩

end Subscription

namespace Subscriptions

/-- The tracked subscriptions as they were made. -/
def orders (m : Subscriptions) : List (Nat × Subscription) :=
  m.tracked.map fun e => (e.1, e.2.made)

/-- The tracked subscription of a number has a certificate. -/
def Holds (m : Subscriptions) (n : Nat) : Prop := ∃ s, (n, s) ∈ m.tracked ∧ s.expiry.isSome = true

/-- No number is tracked twice. -/
def Numbered (m : Subscriptions) : Prop := (m.orders.map (·.1)).Nodup

section
variable {m : Subscriptions} {e : Nat × Subscription}

theorem mem_orders_of_mem (h : e ∈ m.tracked) : (e.1, e.2.made) ∈ m.orders :=
  List.mem_map_of_mem h

theorem map_fst_orders (m : Subscriptions) : m.orders.map (·.1) = m.tracked.map (·.1) := by
  unfold orders
  rw [List.map_map]
  rfl

theorem Numbered.eq_of_mem (h : m.Numbered) {e' : Nat × Subscription} (he : e ∈ m.tracked)
    (he' : e' ∈ m.tracked) (hnumber : e.1 = e'.1) : e = e' := by
  unfold Numbered at h
  rw [map_fst_orders] at h
  exact List.inj_on_of_nodup_map h he he' hnumber

/-- Of a tracked subscription, to have a certificate is to have the end of one. -/
theorem Numbered.holds_iff (h : m.Numbered) (he : e ∈ m.tracked) :
    m.Holds e.1 ↔ e.2.expiry.isSome = true := by
  constructor
  · rintro ⟨s, hs, hexpiry⟩
    rw [h.eq_of_mem he hs rfl]
    exact hexpiry
  · exact fun hexpiry => ⟨e.2, he, hexpiry⟩

/-! ### Taking note of an issuance -/

/-- An issuance that changes no subscription and hands nothing over leaves no trace. -/
theorem record_eq_self (h : m.Numbered) (he : e ∈ m.tracked) {i : Issuance}
    (hi : i.subscription = e.2) (hnone : i.delivered = none) : m.record e.1 i = m := by
  have htracked : m.tracked.map (fun e' => if e'.1 = e.1 then (e.1, i.subscription) else e') =
      m.tracked := by
    refine (List.map_congr_left fun e' he' => ?_).trans (List.map_id _)
    split
    · next hnumber =>
        rw [hi]
        exact h.eq_of_mem he he' hnumber.symm
    · rfl
  unfold record
  rw [htracked, hnone]

theorem mem_tracked_record {i : Issuance} (he : e ∈ m.tracked) {n : Nat} (hn : e.1 ≠ n) :
    e ∈ (m.record n i).tracked :=
  List.mem_map.2 ⟨e, he, if_neg hn⟩

theorem orders_record (h : m.Numbered) (he : e ∈ m.tracked) {i : Issuance}
    (hi : i.subscription.made = e.2.made) : (m.record e.1 i).orders = m.orders := by
  unfold orders record
  rw [List.map_map]
  refine List.map_congr_left fun e' he' => ?_
  simp only [Function.comp_apply]
  split
  · next hnumber =>
      obtain rfl := h.eq_of_mem he he' hnumber.symm
      rw [hi]
  · rfl

theorem holds_record (he : e ∈ m.tracked) {i : Issuance}
    (hi : i.subscription.expiry.isSome = true) (n : Nat) :
    (m.record e.1 i).Holds n ↔ m.Holds n ∨ n = e.1 := by
  constructor
  · rintro ⟨s, hs, hexpiry⟩
    obtain ⟨e', he', heq⟩ := List.mem_map.1 hs
    by_cases hnumber : e'.1 = e.1
    · rw [if_pos hnumber] at heq
      exact .inr (congrArg Prod.fst heq).symm
    · rw [if_neg hnumber] at heq
      exact .inl ⟨s, heq ▸ he', hexpiry⟩
  · have hnew : (m.record e.1 i).Holds e.1 := ⟨i.subscription, List.mem_map.2 ⟨e, he, if_pos rfl⟩, hi⟩
    rintro (⟨s, hs, hexpiry⟩ | rfl)
    · by_cases hnumber : n = e.1
      · exact hnumber ▸ hnew
      · exact ⟨s, mem_tracked_record hs hnumber, hexpiry⟩
    · exact hnew

end

/-! ### Bundles handed over -/

/-- From `m` to `m'` the bundles `called` are handed over, each to a tracked subscription and issued by
the authority in force; besides, only the ends of certificates change. -/
structure Handed (tk : Toolkit) (authority : AuthorityStore) (m m' : Subscriptions)
    (called : List Delivery) : Prop where
  orders : m'.orders = m.orders
  holds : ∀ n, m'.Holds n ↔ m.Holds n ∨ n ∈ called.map (·.number)
  live : m'.live = m.live
  next : m'.next = m.next
  settings : m'.settings = m.settings
  reachability : m'.reachability = m.reachability
  delivered : m'.delivered = m.delivered ++ called
  bundles : ∀ d ∈ called, ∃ ca s, authority.material = some ca ∧ (d.number, s) ∈ m.orders ∧
    d.recipient = s.recipient ∧ s.Certified tk ca m.reachability.all.toList d.bundle

section
variable {tk : Toolkit} {now : Int} {authority : AuthorityStore} {m m' m'' : Subscriptions}
  {called called' : List Delivery}

theorem Handed.refl (m : Subscriptions) : Handed tk authority m m [] where
  orders := rfl
  holds n := by simp
  live := rfl
  next := rfl
  settings := rfl
  reachability := rfl
  delivered := (List.append_nil _).symm
  bundles := nofun

theorem Handed.trans (h : Handed tk authority m m' called) (h' : Handed tk authority m' m'' called') :
    Handed tk authority m m'' (called ++ called') where
  orders := h'.orders.trans h.orders
  holds n := by rw [h'.holds, h.holds, List.map_append, List.mem_append, or_assoc]
  live := h'.live.trans h.live
  next := h'.next.trans h.next
  settings := h'.settings.trans h.settings
  reachability := h'.reachability.trans h.reachability
  delivered := by rw [h'.delivered, h.delivered, List.append_assoc]
  bundles d hd := by
    rcases List.mem_append.1 hd with hd | hd
    · exact h.bundles d hd
    · obtain ⟨ca, s, hca, hs, hrecipient, hcertified⟩ := h'.bundles d hd
      rw [h.orders] at hs
      rw [h.reachability] at hcertified
      exact ⟨ca, s, hca, hs, hrecipient, hcertified⟩

theorem Handed.numbered (h : Handed tk authority m m' called) (hm : m.Numbered) : m'.Numbered := by
  unfold Numbered
  rw [h.orders]
  exact hm

/-- Only tracked subscriptions are called. -/
theorem Handed.not_mem_called (h : Handed tk authority m m' called) {n : Nat}
    (hgone : ∀ s, (n, s) ∉ m.orders) : n ∉ called.map (·.number) := by
  intro hn
  obtain ⟨d, hd, rfl⟩ := List.mem_map.1 hn
  obtain ⟨ca, s, -, hs, -⟩ := h.bundles d hd
  exact hgone s hs

/-- An issuance to a tracked subscription that keeps its certificate does nothing.  Any other fails
without a trace or hands over one bundle, and all other subscriptions stay as they are. -/
theorem issueTo_outcomes (tk : Toolkit) (now : Int) (authority : AuthorityStore) (w : World)
    (hm : m.Numbered) {e : Nat × Subscription} (he : e ∈ m.tracked) :
    (e.2.keeps m.settings = true ∧ issueTo tk now authority m w e = (m, w, .ok ())) ∨
      e.2.keeps m.settings = false ∧
        ((∃ w' f, issueTo tk now authority m w e = (m, w', .error f)) ∨
          ∃ m' w' d, issueTo tk now authority m w e = (m', w', .ok ()) ∧
            Handed tk authority m m' [d] ∧ d.number = e.1 ∧
            ∀ e' ∈ m.tracked, e'.1 ≠ e.1 → e' ∈ m'.tracked) := by
  unfold issueTo
  simp only
  rcases e.2.issue_cases tk now authority m.settings w m.reachability.all.toList with
    ⟨hkeeps, hi⟩ | ⟨hkeeps, ⟨w', f, hi⟩ | ⟨w', ca, expiry, b, hca, hcertified, hi⟩⟩
  · rw [hi, record_eq_self hm he rfl rfl]
    exact .inl ⟨hkeeps, rfl⟩
  · rw [hi, record_eq_self hm he rfl rfl]
    exact .inr ⟨hkeeps, .inl ⟨w', f, rfl⟩⟩
  · rw [hi]
    refine .inr ⟨hkeeps, .inr ⟨_, w', ⟨e.1, e.2.recipient, b⟩, rfl, ?_, rfl, ?_⟩⟩
    · refine ⟨orders_record hm he rfl, ?_, rfl, rfl, rfl, rfl, rfl, ?_⟩
      · intro n
        rw [holds_record he rfl, List.map_singleton, List.mem_singleton]
      · intro d hd
        obtain rfl := List.mem_singleton.1 hd
        exact ⟨ca, e.2.made, hca, mem_orders_of_mem he, rfl, hcertified⟩
    · exact fun e' he' hother => mem_tracked_record he' hother

/-- An issuance to a tracked subscription fails without a trace or hands over a bundle, unless the
subscription keeps its certificate. -/
theorem issueTo_cases (tk : Toolkit) (now : Int) (authority : AuthorityStore) (w : World)
    (hm : m.Numbered) {e : Nat × Subscription} (he : e ∈ m.tracked) :
    (∃ w' f, issueTo tk now authority m w e = (m, w', .error f)) ∨
      ∃ m' w' called, issueTo tk now authority m w e = (m', w', .ok ()) ∧
        Handed tk authority m m' called ∧
        called.map (·.number) = (if e.2.keeps m.settings then [] else [e.1]) ∧
        ∀ e' ∈ m.tracked, e'.1 ≠ e.1 → e' ∈ m'.tracked := by
  rcases issueTo_outcomes tk now authority w hm he with
    ⟨hkeeps, h⟩ | ⟨hkeeps, ⟨w', f, h⟩ | ⟨m', w', d, h, hhanded, hnumber, hothers⟩⟩
  · exact .inr ⟨m, w, [], h, .refl m, (if_pos hkeeps).symm, fun e' he' _ => he'⟩
  · exact .inl ⟨w', f, h⟩
  · refine .inr ⟨m', w', [d], h, hhanded, ?_, hothers⟩
    rw [hkeeps, if_neg Bool.false_ne_true, List.map_singleton, hnumber]

/-- Those that are listed after a subscription are still tracked when it was issued a certificate. -/
theorem tracked_later {e : Nat × Subscription} {es : List (Nat × Subscription)}
    (hes : ∀ e' ∈ e :: es, e' ∈ m.tracked) (hnodup : ((e :: es).map (·.1)).Nodup)
    (hothers : ∀ e' ∈ m.tracked, e'.1 ≠ e.1 → e' ∈ m'.tracked) : ∀ e' ∈ es, e' ∈ m'.tracked := by
  intro e' he'
  refine hothers e' (hes e' (List.mem_cons_of_mem e he')) fun hnumber => ?_
  rw [List.map_cons, List.nodup_cons] at hnodup
  exact hnodup.1 (hnumber ▸ List.mem_map_of_mem he')

/-! ### Many issuances -/

/-- Issues certificates to a list of tracked subscriptions and counts those that succeed. -/
def issueEach (tk : Toolkit) (now : Int) (authority : AuthorityStore)
    (start : Subscriptions × World × Nat) (es : List (Nat × Subscription)) :
    Subscriptions × World × Nat :=
  es.foldl (fun (m, w, n) e =>
    match issueTo tk now authority m w e with
    | (m, w, .ok ()) => (m, w, n + 1)
    | (m, w, .error _) => (m, w, n)) start

theorem reissue_eq_issueEach (tk : Toolkit) (now : Int) (authority : AuthorityStore)
    (due : Subscription → Bool) (m : Subscriptions) (w : World) :
    reissue tk now authority due m w =
      issueEach tk now authority (m, w, 0) (m.tracked.filter fun e => due e.2) := rfl

/-- If nobody is due, nothing happens. -/
theorem reissue_nobody (tk : Toolkit) (now : Int) (authority : AuthorityStore)
    {due : Subscription → Bool} (hdue : ∀ e ∈ m.tracked, due e.2 = false) (w : World) :
    reissue tk now authority due m w = (m, w, 0) := by
  have hnone : m.tracked.filter (fun e => due e.2) = [] :=
    List.filter_eq_nil_iff.2 fun e he => by simp [hdue e he]
  rw [reissue_eq_issueEach, hnone]
  rfl

theorem issueEach_of_ok {w w' : World} {e : Nat × Subscription}
    (h : issueTo tk now authority m w e = (m', w', .ok ())) (n : Nat)
    (es : List (Nat × Subscription)) :
    issueEach tk now authority (m, w, n) (e :: es) =
      issueEach tk now authority (m', w', n + 1) es := by
  unfold issueEach
  rw [List.foldl_cons]
  simp only [h]

theorem issueEach_of_error {w w' : World} {e : Nat × Subscription} {f : Fault}
    (h : issueTo tk now authority m w e = (m', w', .error f)) (n : Nat)
    (es : List (Nat × Subscription)) :
    issueEach tk now authority (m, w, n) (e :: es) =
      issueEach tk now authority (m', w', n) es := by
  unfold issueEach
  rw [List.foldl_cons]
  simp only [h]

/-- The numbers of those in a list whose issuance fails, if certificates are issued to them in turn. -/
def failing (tk : Toolkit) (now : Int) (authority : AuthorityStore) :
    Subscriptions → World → List (Nat × Subscription) → List Nat
  | _, _, [] => []
  | m, w, e :: es =>
    match issueTo tk now authority m w e with
    | (m, w, .ok ()) => failing tk now authority m w es
    | (m, w, .error _) => e.1 :: failing tk now authority m w es

theorem failing_of_ok {w w' : World} {e : Nat × Subscription}
    (h : issueTo tk now authority m w e = (m', w', .ok ())) (es : List (Nat × Subscription)) :
    failing tk now authority m w (e :: es) = failing tk now authority m' w' es := by
  rw [failing, h]

theorem failing_of_error {w w' : World} {e : Nat × Subscription} {f : Fault}
    (h : issueTo tk now authority m w e = (m', w', .error f)) (es : List (Nat × Subscription)) :
    failing tk now authority m w (e :: es) = e.1 :: failing tk now authority m' w' es := by
  rw [failing, h]

/-- Who fails is in the list, and all others are counted. -/
theorem failing_sublist (tk : Toolkit) (now : Int) (authority : AuthorityStore) (m : Subscriptions)
    (w : World) (n : Nat) (es : List (Nat × Subscription)) :
    (failing tk now authority m w es).Sublist (es.map (·.1)) ∧
      (issueEach tk now authority (m, w, n) es).2.2 + (failing tk now authority m w es).length =
        n + es.length := by
  induction es generalizing m w n with
  | nil => exact ⟨List.Sublist.refl _, rfl⟩
  | cons e es ih =>
      rw [List.map_cons, List.length_cons]
      rcases h : issueTo tk now authority m w e with ⟨m', w', f | ⟨⟩⟩
      · rw [issueEach_of_error h, failing_of_error h, List.length_cons]
        obtain ⟨hsub, hcount⟩ := ih m' w' n
        exact ⟨hsub.cons_cons _, by omega⟩
      · rw [issueEach_of_ok h, failing_of_ok h]
        obtain ⟨hsub, hcount⟩ := ih m' w' (n + 1)
        exact ⟨hsub.cons _, by omega⟩

theorem count_issueEach_le (tk : Toolkit) (now : Int) (authority : AuthorityStore)
    (m : Subscriptions) (w : World) (n : Nat) (es : List (Nat × Subscription)) :
    (issueEach tk now authority (m, w, n) es).2.2 ≤ n + es.length := by
  have hcount := (failing_sublist tk now authority m w n es).2
  omega

/-- A number that is not in a list does not matter to it. -/
theorem filter_not_mem_cons {n : Nat} {ns : List Nat} (hn : n ∉ ns) (out : List Nat) :
    ns.filter (fun k => k ∉ n :: out) = ns.filter (fun k => k ∉ out) := by
  refine List.filter_congr fun k hk => ?_
  have hne : k ≠ n := fun h => hn (h ▸ hk)
  simp [hne]

/-- **Failures stay by themselves.**  Of a list of tracked subscriptions, those that do not keep their
certificate are handed a bundle, in the order of the list, except for those whose issuance fails.
Whoever is handed nothing stays as it is.  Counted are those who are handed a bundle and those who keep
their certificate. -/
theorem issueEach_handed (tk : Toolkit) (now : Int) (authority : AuthorityStore) (hm : m.Numbered)
    {w : World} {n : Nat} {es : List (Nat × Subscription)} (hes : ∀ e ∈ es, e ∈ m.tracked)
    (hnodup : (es.map (·.1)).Nodup) :
    ∃ called, Handed tk authority m (issueEach tk now authority (m, w, n) es).1 called ∧
      called.map (·.number) = ((es.filter fun e => !e.2.keeps m.settings).map (·.1)).filter
        (fun k => k ∉ failing tk now authority m w es) ∧
      (∀ e ∈ m.tracked, e.1 ∉ called.map (·.number) →
        e ∈ (issueEach tk now authority (m, w, n) es).1.tracked) ∧
      (issueEach tk now authority (m, w, n) es).2.2 =
        n + called.length + (es.filter fun e => e.2.keeps m.settings).length := by
  induction es generalizing m w n with
  | nil => exact ⟨[], .refl m, rfl, fun e he _ => he, rfl⟩
  | cons e es ih =>
      have htail : ∀ e' ∈ es, e' ∈ m.tracked := fun e' he' => hes e' (List.mem_cons_of_mem e he')
      have hnodups := List.nodup_cons.1 (List.map_cons ▸ hnodup)
      rcases issueTo_outcomes tk now authority w hm (hes e List.mem_cons_self) with
        ⟨hkeeps, h⟩ | ⟨hkeeps, ⟨w', f, h⟩ | ⟨m', w', d, h, hfirst, hnumber, hothers⟩⟩
      · rw [issueEach_of_ok h, failing_of_ok h, List.filter_cons_of_neg (by simp [hkeeps]),
          List.filter_cons_of_pos (by simp [hkeeps])]
        obtain ⟨rest, hrest, hnumbers, hstay, hcount⟩ := ih hm htail hnodups.2 (n := n + 1)
        exact ⟨rest, hrest, hnumbers, hstay, by rw [hcount, List.length_cons]; omega⟩
      · rw [issueEach_of_error h, failing_of_error h, List.filter_cons_of_pos (by simp [hkeeps]),
          List.filter_cons_of_neg (by simp [hkeeps]), List.map_cons,
          List.filter_cons_of_neg (by simp), filter_not_mem_cons]
        · exact ih hm htail hnodups.2
        · exact fun h => hnodups.1 ((List.filter_sublist.map _).subset h)
      · have hunfailing : e.1 ∉ failing tk now authority m' w' es :=
          fun h => hnodups.1 ((failing_sublist tk now authority m' w' 0 es).1.subset h)
        rw [issueEach_of_ok h, failing_of_ok h, List.filter_cons_of_pos (by simp [hkeeps]),
          List.filter_cons_of_neg (by simp [hkeeps]), List.map_cons,
          List.filter_cons_of_pos (by simpa using hunfailing), ← hfirst.settings]
        obtain ⟨rest, hrest, hnumbers, hstay, hcount⟩ := ih (hfirst.numbered hm)
          (tracked_later hes hnodup hothers) hnodups.2 (n := n + 1)
        refine ⟨d :: rest, hfirst.trans hrest, ?_, fun e' he' hcalled => ?_, ?_⟩
        · rw [List.map_cons, hnumber, hnumbers]
        · rw [List.map_cons, List.mem_cons, not_or, hnumber] at hcalled
          exact hstay e' (hothers e' he' hcalled.1) hcalled.2
        · rw [hcount, List.length_cons]
          omega

theorem nodup_tracked_filter (hm : m.Numbered) (p : Nat × Subscription → Bool) :
    ((m.tracked.filter p).map (·.1)).Nodup := by
  unfold Numbered at hm
  rw [map_fst_orders] at hm
  exact hm.sublist (List.filter_sublist.map _)

/-- The numbers of the subscriptions that are due and whose issuance fails. -/
def failures (tk : Toolkit) (now : Int) (authority : AuthorityStore) (due : Subscription → Bool)
    (m : Subscriptions) (w : World) : List Nat :=
  failing tk now authority m w (m.tracked.filter fun e => due e.2)

/-- Those that are due and do not keep their certificate are handed one bundle each, except for those
whose issuance fails.  Whoever is handed nothing stays as it is.  Counted are those who are handed a
bundle and those who are due and keep their certificate. -/
theorem reissue_handed_except (tk : Toolkit) (now : Int) (authority : AuthorityStore)
    (hm : m.Numbered) (due : Subscription → Bool) (w : World) :
    ∃ called, Handed tk authority m (reissue tk now authority due m w).1 called ∧
      called.map (·.number) =
        ((m.tracked.filter fun e => due e.2 && !e.2.keeps m.settings).map (·.1)).filter
          (fun n => n ∉ failures tk now authority due m w) ∧
      (∀ e ∈ m.tracked, e.1 ∉ called.map (·.number) →
        e ∈ (reissue tk now authority due m w).1.tracked) ∧
      (reissue tk now authority due m w).2.2 =
        called.length + (m.tracked.filter fun e => due e.2 && e.2.keeps m.settings).length := by
  obtain ⟨called, hcalled, hnumbers, hstay, hcount⟩ := issueEach_handed tk now authority hm
    (fun e he => List.mem_of_mem_filter he) (nodup_tracked_filter hm fun e => due e.2)
  rw [List.filter_filter] at hnumbers hcount
  simp only [Bool.and_comm (due _)]
  exact ⟨called, hcalled, hnumbers, hstay, hcount.trans (congrArg (· + _) (Nat.zero_add _))⟩

/-- If rotation is not disabled, nobody keeps its certificate, and exactly those are counted that are
handed a bundle. -/
theorem reissue_handed_of_rotating (tk : Toolkit) (now : Int) (authority : AuthorityStore)
    (hm : m.Numbered) (hrotating : m.settings.rotationDisabled = false) (due : Subscription → Bool)
    (w : World) :
    ∃ called, Handed tk authority m (reissue tk now authority due m w).1 called ∧
      called.map (·.number) = ((m.tracked.filter fun e => due e.2).map (·.1)).filter
        (fun n => n ∉ failures tk now authority due m w) ∧
      (∀ e ∈ m.tracked, e.1 ∉ called.map (·.number) →
        e ∈ (reissue tk now authority due m w).1.tracked) ∧
      (reissue tk now authority due m w).2.2 = called.length := by
  obtain ⟨called, hcalled, hnumbers, hstay, hcount⟩ :=
    reissue_handed_except tk now authority hm due w
  simp only [Subscription.keeps_of_rotating hrotating, Bool.not_false, Bool.and_true, Bool.and_false,
    List.filter_false, List.length_nil, Nat.add_zero] at hnumbers hcount
  exact ⟨called, hcalled, hnumbers, hstay, hcount⟩

theorem exists_handed_reissue (tk : Toolkit) (now : Int) (authority : AuthorityStore)
    (hm : m.Numbered) (due : Subscription → Bool) (w : World) :
    ∃ called, Handed tk authority m (reissue tk now authority due m w).1 called := by
  obtain ⟨called, hcalled, -⟩ := reissue_handed_except tk now authority hm due w
  exact ⟨called, hcalled⟩

/-- Every subscription that is due gets its certificate, or keeps the one it has. -/
def AllIssued (tk : Toolkit) (now : Int) (authority : AuthorityStore) (due : Subscription → Bool)
    (m : Subscriptions) (w : World) : Prop :=
  (reissue tk now authority due m w).2.2 = (m.tracked.filter fun e => due e.2).length

/-- Those that are due are counted, except for those whose issuance fails. -/
theorem count_reissue (tk : Toolkit) (now : Int) (authority : AuthorityStore)
    (due : Subscription → Bool) (m : Subscriptions) (w : World) :
    (reissue tk now authority due m w).2.2 + (failures tk now authority due m w).length =
      (m.tracked.filter fun e => due e.2).length :=
  (failing_sublist tk now authority m w 0 _).2.trans (Nat.zero_add _)

theorem allIssued_iff {due : Subscription → Bool} {w : World} :
    AllIssued tk now authority due m w ↔ failures tk now authority due m w = [] := by
  have hcount := count_reissue tk now authority due m w
  unfold AllIssued
  rw [← List.length_eq_zero_iff]
  omega

/-- If all issuances succeed, the subscriptions that are due and do not keep their certificate are
handed one bundle each. -/
theorem reissue_handed (hm : m.Numbered) {due : Subscription → Bool} {w : World}
    (hall : AllIssued tk now authority due m w) :
    ∃ called, Handed tk authority m (reissue tk now authority due m w).1 called ∧
      called.map (·.number) =
        (m.tracked.filter fun e => due e.2 && !e.2.keeps m.settings).map (·.1) := by
  obtain ⟨called, hcalled, hnumbers, -⟩ := reissue_handed_except tk now authority hm due w
  refine ⟨called, hcalled, hnumbers.trans (List.filter_eq_self.2 fun n _ => ?_)⟩
  rw [allIssued_iff.1 hall]
  rfl

end

end Subscriptions

end DeviceAccess
