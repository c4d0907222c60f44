import DeviceAccess.Certificate.Inspection

/-!
# Certificates in words

A certificate as it is shown to people: both names part by part, how long it holds, whether it is an
authority, which purposes it is confined to and what its key may be used for.
-/

namespace DeviceAccess

/-- What is shown of a certificate. -/
structure CertificateSummary where
  subject : String
  issuer : String
  /-- Seconds from the start of the validity to its end. -/
  validity : Int
  isAuthority : Bool
  /-- The kinds of connections it is confined to; none if it is not confined. -/
  kinds : Option (List CertificateKind)
  /-- What its key may be used for. -/
  uses : List String
  deriving DecidableEq, Repr

namespace CertificateSummary

/-- The short name of a kind of name part. -/
def partName (id : Bytes) : String :=
  if id = Certificate.countryId then "C"
  else if id = Certificate.organizationId then "O"
  else if id = Certificate.commonNameId then "CN"
  else "?"

/-- A name, part by part. -/
def shownName (name : Bytes) : String :=
  ", ".intercalate (((Certificate.nameParts? name).getD []).map fun p =>
    partName p.id ++ "=" ++ (Certificate.NamePart.text? p).getD "?")

/-- The names of the uses of a key, by their numbers. -/
def useNames : List String := ["digitalSignature", "nonRepudiation", "keyEncipherment",
  "dataEncipherment", "keyAgreement", "keyCertSign", "cRLSign", "encipherOnly"]

/-- The uses that a certificate allows its key. -/
def usesOf (c : Certificate) : List String :=
  match (c.extension? Certificate.keyUsageExtension).bind fun e =>
      Der.whole (Der.contentOf Der.bitStringTag) e.value with
  | some (_ :: bits :: _) =>
    (useNames.zipIdx.filter fun n => bits.toNat / Nat.pow 2 (7 - n.2) % 2 = 1).map (·.1)
  | _ => []

/-- The kinds of connections that purposes stand for. -/
def kindsOf (purposes : List Bytes) : List CertificateKind :=
  (if purposes.contains Certificate.serverPurpose then [.server] else [])
    ++ if purposes.contains Certificate.clientPurpose then [.client] else []

/-- What is shown of a certificate. -/
def ofCertificate (c : Certificate) : CertificateSummary where
  subject := shownName c.subject
  issuer := shownName c.issuer
  validity := c.notAfter - c.notBefore
  isAuthority := (c.constraints?.map (·.isAuthority)).getD false
  kinds := (c.purposes?.bind id).map kindsOf
  uses := usesOf c

/-- What is shown of the first certificate of a text, if it can be read. -/
def ofText? (text : String) : Option CertificateSummary :=
  (((CertificateText.chain text).toOption.bind List.head?).bind Certificate.read?).map ofCertificate

end CertificateSummary

end DeviceAccess
