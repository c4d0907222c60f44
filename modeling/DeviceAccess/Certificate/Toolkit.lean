import DeviceAccess.Certificate.Issue

/-!
# The certificate toolkit

What the gateway's own logic takes as given of certificates and keys, as a record of operations: path
validation, reading of chains and keys, and issuance.  `Toolkit.standard` is the one in use.
-/

namespace DeviceAccess

/-- The operations on certificates and keys. -/
structure Toolkit where
  /-- Whether a chain leads to an authority at a point in time. -/
  isIssuedBy : Int → String → String → Bool
  /-- The certificates of a text. -/
  chain : String → Except Fault (List Bytes)
  /-- The algorithm of a key. -/
  keyType : String → Except Fault (Option KeyType)
  /-- Whether a key is the one that a certificate certifies. -/
  certifiedBy : String → String → Except Fault Bool
  /-- The end of a certificate's validity. -/
  expiry : String → Except Fault Nat
  /-- Draws a key. -/
  newKey : KeyType → StateM Entropy (Except Fault PrivateKey)
  /-- Makes an authority, by its name, the algorithm of its key, its validity and the time. -/
  newAuthority : String → KeyType → Nat → Int → StateM Entropy (Except Fault Issue.Authority)
  /-- Issues a certificate for a key, signed with the certificate and the key of an authority. -/
  issue : Issue.Request → PrivateKey → String → String → Int →
    StateM Entropy (Except Fault String)

/-- The toolkit in use. -/
def Toolkit.standard : Toolkit where
  isIssuedBy := CertificatePath.isIssuedBy
  chain := CertificateText.chain
  keyType := KeyText.keyType
  certifiedBy := KeyText.certifiedBy
  expiry := fun text => (CertificateInfo.ofText text).map (·.notAfter)
  newKey := Issue.newKey
  newAuthority := Issue.authority
  issue := Issue.leaf

end DeviceAccess
