import DeviceAccess.Certificate.Path
import DeviceAccess.Certificate.PrivateKey
import DeviceAccess.Fault

/-!
# Certificates and keys as texts

Certificates and keys pass between the parts of the gateway as PEM texts.  Here is what the
gateway asks of such a text: the chain it holds, whether that was issued by an authority, the
algorithm of a key, whether a key belongs to a certificate, and what a certificate says about its
holder.
-/

namespace DeviceAccess

/-- The name of a certificate text in the gateway: the hash of the text. -/
def certificateHash (text : String) : String := Bytes.toHex (sha256 (Bytes.ofText text))

namespace CertificateText

/-- The certificates of a text, at least one. -/
def chain (text : String) : Except Fault (List Bytes) :=
  match Pem.certificates? text with
  | .error e => .error (.authentication ("Failed to parse certificate chain: " ++ e.message))
  | .ok [] => .error (.authentication "No certificate found in PEM")
  | .ok chain => .ok chain

/-- The certificates of a text as texts of their own. -/
def split (text : String) : Except Fault (List String) :=
  (chain text).map fun l => l.map Pem.ofCertificate

/-- The fault of a certificate that cannot be read. -/
def unreadable : String := "Failed to parse certificate: malformed certificate"

end CertificateText

/-- Whether the chain of one text leads to a certificate of another.  Nothing is issued by a text that
holds a certificate which cannot be an authority's. -/
def PathValidator.isIssuedBy {α : Type} (v : PathValidator α) (now : Int) (chain authority : String) :
    Bool :=
  match CertificateText.chain chain, CertificateText.chain authority with
  | .ok (first :: rest), .ok trusted =>
    match trusted.mapM v.anchor? with
    | some anchors => v.leadsTo now anchors first rest
    | none => false
  | _, _ => false

/-- Whether the chain of one text is issued by a certificate of another. -/
def CertificatePath.isIssuedBy : Int → String → String → Bool := validator.isIssuedBy

namespace KeyText

/-- Reads a key. -/
def read (text : String) : Except Fault PrivateKey :=
  match PrivateKey.ofPem? text with
  | some k => .ok k
  | none => .error (.keyStore "Failed to parse private key: could not parse key pair")

/-- The algorithm of a key, if it is one that configuration can name. -/
def keyType (text : String) : Except Fault (Option KeyType) := (read text).map PrivateKey.keyType?

/-- Whether a key is the one that the first certificate of a text certifies. -/
def certifiedBy (key certificate : String) : Except Fault Bool := do
  let k ← read key
  let chain ← (CertificateText.chain certificate).mapError fun e => .keyStore e.message
  match (chain.head?).bind Certificate.read? with
  | none => throw (.keyStore CertificateText.unreadable)
  | some c => return c.keyBits = k.publicBits

end KeyText

/-- What a certificate says about its holder. -/
structure CertificateInfo where
  commonName : Option String
  dnsNames : List String
  ipAddresses : List String
  /-- The end of the validity, in seconds since the start of 1970; earlier ends count as that. -/
  notAfter : Nat
  deriving DecidableEq, Repr

namespace CertificateInfo

/-- All alternative names, host names first. -/
def alternativeNames (i : CertificateInfo) : List String := i.dnsNames ++ i.ipAddresses

/-- What a certificate says. -/
def ofBytes (b : Bytes) : Except Fault CertificateInfo :=
  match Certificate.read? b with
  | none => .error (.certificateGeneration CertificateText.unreadable)
  | some c => .ok ⟨c.commonName?, c.dnsNames, c.ipAddresses, c.notAfter.toNat⟩

/-- What the first certificate of a text says. -/
def ofText (text : String) : Except Fault CertificateInfo := do
  let chain ← (CertificateText.chain text).mapError fun e => .certificateGeneration e.message
  ofBytes (chain.headD [])

end CertificateInfo

end DeviceAccess
