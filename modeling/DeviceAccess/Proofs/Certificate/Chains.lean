import DeviceAccess.Certificate.Inspection
import DeviceAccess.Proofs.Encoding.Pem

/-!
# Chains of certificates as texts

A chain is written as one text for each certificate, one after the other, and read as the list of all
certificates of a text (`CertificateText.chain`).  Reading undoes writing, whatever the length of the
certificates.  The other way round a text has many forms: between certificates there may be anything, and
lines may be broken anywhere.  To split a text is to bring it into the written form, and nothing is left
to do for a second split (`CertificateText.chain_split_roundtrip`).
-/

namespace DeviceAccess.CertificateText

variable {text : String} {certificates : List Bytes}

/-- The certificates as one text. -/
def joined (certificates : List Bytes) : String := String.join (certificates.map Pem.ofCertificate)

theorem certificates?_joined (certificates : List Bytes) :
    Pem.certificates? (joined certificates) = .ok certificates := by
  unfold joined
  induction certificates with
  | nil => rfl
  | cons b certificates ih =>
      rw [List.map_cons, String.join_cons]
      exact Pem.certificates?_append (Pem.endsLine_ofCertificate b) (Pem.certificates?_ofCertificate b) ih

/-- A chain is read off a text that holds its certificates, and these are not none. -/
theorem chain_eq_ok_iff :
    chain text = .ok certificates ↔ Pem.certificates? text = .ok certificates ∧ certificates ≠ [] := by
  unfold chain
  cases Pem.certificates? text with
  | error e => simp
  | ok found =>
      cases found with
      | nil => simp [eq_comm]
      | cons b found =>
          simp only [Except.ok.injEq]
          constructor
          · rintro rfl
            exact ⟨rfl, List.cons_ne_nil b found⟩
          · exact fun h => h.1

/-- Written chains are read back. -/
theorem chain_joined (h : certificates ≠ []) : chain (joined certificates) = .ok certificates :=
  chain_eq_ok_iff.2 ⟨certificates?_joined certificates, h⟩

theorem split_of_chain (h : chain text = .ok certificates) :
    split text = .ok (certificates.map Pem.ofCertificate) := by
  unfold split
  rw [h]
  rfl

/-- **Reading, writing and splitting chains.**  A chain of one certificate or more is read back from the
text that it is written as.  From whatever text a chain is read, the text is split into the written forms
of the certificates; each of these is read as its own certificate and no other; and to split them again,
joined to one text, changes nothing. -/
theorem chain_split_roundtrip :
    (∀ certificates, certificates ≠ [] → chain (joined certificates) = .ok certificates) ∧
    ∀ text certificates, chain text = .ok certificates →
      split text = .ok (certificates.map Pem.ofCertificate) ∧
        (∀ b ∈ certificates, chain (Pem.ofCertificate b) = .ok [b]) ∧
        split (joined certificates) = .ok (certificates.map Pem.ofCertificate) := by
  refine ⟨fun certificates hne => chain_joined hne, fun text certificates h => ?_⟩
  obtain ⟨-, hne⟩ := chain_eq_ok_iff.1 h
  refine ⟨split_of_chain h, fun b _ => ?_, split_of_chain (chain_joined hne)⟩
  have hone := chain_joined (List.cons_ne_nil b [])
  rwa [joined, List.map_cons, List.map_nil, String.join_cons, String.join_nil, String.append_empty] at hone

/-- Two certificates with a remark between them, of which the first is broken in the middle of a group. -/
def remarkedText : String :=
  "-----BEGIN CERTIFICATE-----\nA\n QIDBA==\n-----END CERTIFICATE-----\nremark\r\n" ++
    "-----BEGIN CERTIFICATE-----\nBQ\n-----END CERTIFICATE-----"

theorem chain_split_roundtrip_remarkedText :
    chain remarkedText = .ok [[1, 2, 3, 4], [5]] ∧
      split remarkedText = .ok [Pem.ofCertificate [1, 2, 3, 4], Pem.ofCertificate [5]] ∧
      chain (Pem.ofCertificate [5]) = .ok [[5]] ∧
      chain (joined [[6], [7]]) = .ok [[6], [7]] := by
  have hread : chain remarkedText = .ok [[1, 2, 3, 4], [5]] := by decide +kernel
  obtain ⟨hsplit, heach, -⟩ := chain_split_roundtrip.2 remarkedText _ hread
  exact ⟨hread, hsplit, heach [5] (by decide), chain_split_roundtrip.1 [[6], [7]] (by decide)⟩

end DeviceAccess.CertificateText
