import DeviceAccess.Proofs.Certificate.Chains

/-!
# Trusting several authorities at once

Texts are judged by a validator of paths, which tells whether a certificate leads to one of some
anchors.  If it trusts each anchor for itself (`PathValidator.TrustsEach`), then the certificates of a
chain that is trusted as one text are trusted every single one (`PathValidator.isIssuedBy_join_iff`).
The validator in use does (`CertificatePath.validator_trustsEach`).
-/

namespace DeviceAccess

namespace CertificateText

variable {before after : String} {found more : List Bytes}

/-- The certificates of a text of whole lines come before those of the text after it. -/
theorem chain_append (hline : Pem.EndsLine before) (hbefore : chain before = .ok found)
    (hafter : chain after = .ok more) : chain (before ++ after) = .ok (found ++ more) := by
  rw [chain_eq_ok_iff] at *
  exact ⟨Pem.certificates?_append hline hbefore.1 hafter.1, List.append_ne_nil_of_left_ne_nil hbefore.2 _⟩

theorem chain_ofCertificate (b : Bytes) : chain (Pem.ofCertificate b) = .ok [b] :=
  chain_eq_ok_iff.2 ⟨Pem.certificates?_ofCertificate b, List.cons_ne_nil b []⟩

/-- Joined texts of whole lines can be read if each of them can. -/
theorem exists_chain_join {first : String} {texts : List String}
    (hlines : ∀ text ∈ first :: texts, Pem.EndsLine text)
    (hread : ∀ text ∈ first :: texts, ∃ bs, chain text = .ok bs) :
    ∃ bs, chain (String.join (first :: texts)) = .ok bs := by
  induction texts generalizing first with
  | nil =>
      rw [String.join_cons, String.join_nil, String.append_empty]
      exact hread first (List.mem_singleton_self first)
  | cons second texts ih =>
      obtain ⟨hline, hlines⟩ := List.forall_mem_cons.1 hlines
      obtain ⟨⟨found, hfound⟩, hread⟩ := List.forall_mem_cons.1 hread
      obtain ⟨more, hmore⟩ := ih hlines hread
      rw [String.join_cons]
      exact ⟨found ++ more, chain_append hline hfound hmore⟩

end CertificateText

namespace PathValidator

variable {α : Type} {v : PathValidator α} {now : Int} {chain : String}

/-- What leads to one of several anchors are the certificates that lead to one of them alone. -/
def TrustsEach (v : PathValidator α) : Prop :=
  ∀ now anchors first rest, v.leadsTo now anchors first rest = true ↔
    ∃ a ∈ anchors, v.leadsTo now [a] first rest = true

/-- The anchors of a text; none if one of its certificates cannot be an authority's. -/
def anchors? (v : PathValidator α) (authority : String) : Option (List α) :=
  match CertificateText.chain authority with
  | .ok trusted => trusted.mapM v.anchor?
  | .error _ => none

theorem anchors?_eq {text : String} {bs : List Bytes} (h : CertificateText.chain text = .ok bs) :
    v.anchors? text = bs.mapM v.anchor? := by
  unfold anchors?
  rw [h]

theorem anchors?_ofCertificate {b : Bytes} {a : α} (h : v.anchor? b = some a) :
    v.anchors? (Pem.ofCertificate b) = some [a] := by
  rw [anchors?_eq (CertificateText.chain_ofCertificate b)]
  simp [h]

theorem isIssuedBy_iff {authority : String} :
    v.isIssuedBy now chain authority = true ↔ ∃ first rest anchors,
      CertificateText.chain chain = .ok (first :: rest) ∧ v.anchors? authority = some anchors ∧
        v.leadsTo now anchors first rest = true := by
  unfold isIssuedBy anchors?
  cases CertificateText.chain chain with
  | error e => simp
  | ok certificates =>
      cases certificates with
      | nil => simp
      | cons first rest =>
          cases CertificateText.chain authority with
          | error e => simp
          | ok trusted =>
              simp only
              cases trusted.mapM v.anchor? with
              | none => simp
              | some anchors => simp [and_assoc]

theorem isSome_anchors?_of_isIssuedBy {authority : String}
    (h : v.isIssuedBy now chain authority = true) : (v.anchors? authority).isSome := by
  obtain ⟨first, rest, anchors, -, hanchors, -⟩ := isIssuedBy_iff.1 h
  rw [hanchors]
  rfl

/-! ### The authorities of several texts -/

/-- The anchors of a text of whole lines come before those of the text after it. -/
theorem anchors?_append {before after : String} (hline : Pem.EndsLine before)
    (hbefore : ∃ bs, CertificateText.chain before = .ok bs)
    (hafter : ∃ bs, CertificateText.chain after = .ok bs) :
    v.anchors? (before ++ after) = (v.anchors? before).bind fun as =>
      (v.anchors? after).map fun more => as ++ more := by
  obtain ⟨bs, hbs⟩ := hbefore
  obtain ⟨more, hmore⟩ := hafter
  rw [anchors?_eq hbs, anchors?_eq hmore,
    anchors?_eq (CertificateText.chain_append hline hbs hmore), List.mapM_append]
  cases bs.mapM v.anchor? with
  | none => rfl
  | some as =>
      cases more.mapM v.anchor? with
      | none => rfl
      | some more => rfl

theorem isIssuedBy_append_iff (hv : v.TrustsEach) {before after : String}
    (hline : Pem.EndsLine before) (hbefore : ∃ bs, CertificateText.chain before = .ok bs)
    (hafter : ∃ bs, CertificateText.chain after = .ok bs) :
    v.isIssuedBy now chain (before ++ after) = true ↔
      ((v.anchors? before).isSome ∧ (v.anchors? after).isSome) ∧
        (v.isIssuedBy now chain before = true ∨ v.isIssuedBy now chain after = true) := by
  simp only [isIssuedBy_iff, anchors?_append hline hbefore hafter]
  cases v.anchors? before with
  | none => simp
  | some as =>
      cases v.anchors? after with
      | none => simp
      | some more =>
          simp only [Option.bind_some, Option.map_some, Option.some.injEq, Option.isSome_some,
            exists_and_left, exists_eq_left', true_and, and_true]
          simp only [← exists_or, ← and_or_left]
          refine exists_congr fun first => exists_congr fun rest => and_congr_right fun _ => ?_
          rw [hv, hv now as, hv now more]
          simp only [List.mem_append, or_and_right, exists_or]

theorem isSome_anchors?_join_iff {first : String} {texts : List String}
    (hlines : ∀ text ∈ first :: texts, Pem.EndsLine text)
    (hread : ∀ text ∈ first :: texts, ∃ bs, CertificateText.chain text = .ok bs) :
    (v.anchors? (String.join (first :: texts))).isSome ↔
      ∀ text ∈ first :: texts, (v.anchors? text).isSome := by
  induction texts generalizing first with
  | nil => simp [String.join_cons, String.join_nil]
  | cons second texts ih =>
      obtain ⟨hline, hlines⟩ := List.forall_mem_cons.1 hlines
      obtain ⟨hfirst, hread⟩ := List.forall_mem_cons.1 hread
      rw [String.join_cons, List.forall_mem_cons, ← ih hlines hread,
        anchors?_append hline hfirst (CertificateText.exists_chain_join hlines hread)]
      cases v.anchors? first with
      | none => simp
      | some as => simp

/-- **Every certificate of a trusted text is trusted.**  A chain is issued by a text that is put
together from readable texts of whole lines exactly if one of these issued it and none of them holds
a certificate that cannot be an authority's. -/
theorem isIssuedBy_join_iff (hv : v.TrustsEach) {first : String} {texts : List String}
    (hlines : ∀ text ∈ first :: texts, Pem.EndsLine text)
    (hread : ∀ text ∈ first :: texts, ∃ bs, CertificateText.chain text = .ok bs) :
    v.isIssuedBy now chain (String.join (first :: texts)) = true ↔
      (∀ text ∈ first :: texts, (v.anchors? text).isSome) ∧
        ∃ text ∈ first :: texts, v.isIssuedBy now chain text = true := by
  induction texts generalizing first with
  | nil =>
      simp only [String.join_cons, String.join_nil, String.append_empty, List.mem_singleton,
        forall_eq, exists_eq_left]
      exact (and_iff_right_of_imp isSome_anchors?_of_isIssuedBy).symm
  | cons second texts ih =>
      obtain ⟨hline, hlines'⟩ := List.forall_mem_cons.1 hlines
      obtain ⟨hfirst, hread'⟩ := List.forall_mem_cons.1 hread
      have hjoin := CertificateText.exists_chain_join hlines' hread'
      rw [String.join_cons, isIssuedBy_append_iff hv hline hfirst hjoin, ih hlines' hread',
        isSome_anchors?_join_iff hlines' hread', List.forall_mem_cons (a := first),
        List.exists_mem_cons_iff _ first]
      exact and_congr_right fun hall => or_congr_right (and_iff_right hall.2)

end PathValidator

/-! ### The validator in use -/

theorem Anchor.eq_of_anchor? {b : Bytes} {a : Anchor}
    (h : CertificatePath.validator.anchor? b = some a) :
    ∃ c, Certificate.read? b = some c ∧ a = ⟨c.subject, c.keyName, c.keyBits⟩ := by
  obtain ⟨c, hc, ha⟩ := Option.bind_eq_some_iff.1 h
  unfold ofCertificate? at ha
  simp only at ha
  split at ha
  · exact ⟨c, hc, (Option.some.inj ha).symm⟩
  · cases ha

namespace CertificatePath

variable {now : Int} {anchors : List Anchor} {stock : List Certificate}

/-- A path that leads to some of several authorities leads to one of them. -/
theorem reaches_iff_exists {room : Nat} {path : List Certificate} :
    reaches now anchors stock room path = true ↔
      ∃ a ∈ anchors, reaches now [a] stock room path = true := by
  induction room generalizing path with
  | zero =>
      cases path with
      | nil => simp [reaches]
      | cons top path =>
          simp only [reaches, Bool.or_false, Bool.and_eq_true, List.any_eq_true,
            List.mem_singleton, exists_eq_left]
          rw [← exists_and_left]
          exact exists_congr fun a => and_left_comm
  | succ room ih =>
      cases path with
      | nil => simp [reaches]
      | cons top path =>
          simp only [reaches, Bool.and_eq_true, Bool.or_eq_true, List.any_eq_true, ih,
            List.mem_singleton, exists_eq_left]
          constructor
          · rintro ⟨halone, ⟨a, ha, hsigned⟩ | ⟨c, hc, hnew, a, ha, hreaches⟩⟩
            · exact ⟨a, ha, halone, .inl hsigned⟩
            · exact ⟨a, ha, halone, .inr ⟨c, hc, hnew, hreaches⟩⟩
          · rintro ⟨a, ha, halone, hsigned | ⟨c, hc, hnew, hreaches⟩⟩
            · exact ⟨halone, .inl ⟨a, ha, hsigned⟩⟩
            · exact ⟨halone, .inr ⟨c, hc, hnew, a, ha, hreaches⟩⟩

/-- A certificate leads to some of several authorities exactly if it leads to one of them alone. -/
theorem validator_trustsEach : validator.TrustsEach := by
  intro now anchors first rest
  show isIssued now anchors first rest = true ↔ ∃ a ∈ anchors, isIssued now [a] first rest = true
  unfold isIssued
  cases hfirst : (Certificate.read? first).filter Certificate.isStrict with
  | none => simp [hfirst]
  | some c =>
      simp only [hfirst]
      exact reaches_iff_exists

/-- A certificate without others leads to an authority if it may stand alone and the authority signed
it. -/
theorem isIssued_nil_iff {a : Anchor} {b : Bytes} {c : Certificate}
    (hread : Certificate.read? b = some c) (hstrict : c.isStrict = true) :
    isIssued now [a] b [] = true ↔
      acceptsAlone now true 0 c = true ∧ a.subject = c.issuer ∧
        isSigned a.keyName a.keyBits [c] = true := by
  have hfilter : (Certificate.read? b).filter Certificate.isStrict = some c := by
    rw [hread, Option.filter_some, if_pos hstrict]
  unfold isIssued
  simp only [hfilter, List.filterMap_nil]
  simp [reaches, greatestDepth]

end CertificatePath

end DeviceAccess
