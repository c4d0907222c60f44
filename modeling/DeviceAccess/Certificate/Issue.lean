import DeviceAccess.Certificate.Inspection

/-!
# Issuing certificates

An authority issues itself a certificate, and issues certificates to others for a key of theirs.
The issuer's name in a certificate is its subject name, part by part; of two parts of one kind the
later one stays, in the place of the earlier.
-/

namespace DeviceAccess

namespace Issue

/-- A new authority. -/
structure Authority where
  certificate : String
  key : String
  deriving DecidableEq

/-- What a certificate is asked for. -/
structure Request where
  commonName : String
  kind : CertificateKind
  /-- Host names and addresses. -/
  names : List String
  /-- Seconds that the certificate holds. -/
  validity : Nat
  deriving DecidableEq

/-! ### Parts of certificates -/

/-- The organization of all issued certificates. -/
def organization : String := "Edge Trust"

/-- The country of all issued certificates. -/
def country : String := "US"

/-- A part of a name as text. -/
def namePart (id : Bytes) (text : String) : NamePart := ⟨id, Der.utf8StringTag, Bytes.ofText text⟩

/-- The name of the holder of an issued certificate. -/
def subject (commonName : String) : List NamePart :=
  [namePart Certificate.countryId country, namePart Certificate.organizationId organization,
    namePart Certificate.commonNameId commonName]

/-- The content of a name. -/
def writeName (parts : List NamePart) : Bytes :=
  parts.flatMap fun p =>
    Der.set [Der.sequence [Der.objectId p.id, Der.element p.tag p.value]]

/-- Puts a part into a name, in the place of one of its kind if there is one. -/
def placePart (p : NamePart) : List NamePart → List NamePart
  | [] => [p]
  | q :: qs => if q.id = p.id then p :: qs else q :: placePart p qs

/-- A point in time: until 2049 with two digits of the year. -/
def writeTime (seconds : Int) : Bytes :=
  let m := Calendar.Moment.ofSeconds seconds
  if m.year < 2050 then Der.element Der.utcTimeTag (Bytes.ofText (m.compact 2))
  else Der.element Der.generalizedTimeTag (Bytes.ofText (m.compact 4))

/-- An extension. -/
def writeExtension (id : Bytes) (critical : Bool) (value : Bytes) : Bytes :=
  Der.sequence ([Der.objectId id] ++ (if critical then [Der.boolean true] else [])
    ++ [Der.octetString value])

/-- The uses of a key, by their numbers. -/
def keyUsage (uses : List Nat) : Bytes :=
  let bits := uses.foldl (fun n i => n ||| Nat.pow 2 (7 - i)) 0
  let unused := 7 - uses.foldl max 0
  Der.element Der.bitStringTag [UInt8.ofNat unused, UInt8.ofNat bits]

/-- The uses of an authority's key: signatures, certificates and revocation lists. -/
def authorityUses : List Nat := [0, 5, 6]

/-- The uses of a key in connections: signatures and the encipherment of keys. -/
def leafUses : List Nat := [0, 2]

/-- The short name of a key. -/
def shortNameOf (k : PrivateKey) : Bytes := (sha256 k.publicInfo).take 20

/-- The last second that certificates can name. -/
def lastSecond : Int := 253402300799

/-- The end of a validity that starts now. -/
def endOfValidity (now : Int) (seconds : Nat) : Except Fault Int :=
  if now + seconds ≤ lastSecond then .ok (now + seconds)
  else .error (.certificateGeneration "Validity out of range: year above 9999")

/-- Draws the number of a certificate. -/
def serial : StateM Entropy Bytes := do
  let b ← Entropy.bytes 16
  return Der.nat (b.toNat % Nat.pow 2 127)

/-- The signed certificate of a holder. -/
def assemble (number : Bytes) (issuer : Bytes) (signingKey : PrivateKey) (now notAfter : Int)
    (holder : List NamePart) (holderInfo : Bytes) (extensions : List Bytes) :
    StateM Entropy Bytes := do
  let name := Der.element Der.sequenceTag signingKey.signatureName
  let content := Der.sequence [
    Der.element (Der.nestedTag 0) (Der.nat 2), number, name,
    Der.element Der.sequenceTag issuer, Der.sequence [writeTime now, writeTime notAfter],
    Der.element Der.sequenceTag (writeName holder), holderInfo,
    Der.element (Der.nestedTag 3) (Der.sequence extensions)]
  let signature ← signingKey.sign content
  return Der.sequence [content, name, Der.bitString signature]

/-- An alternative name: an address if the text is one, else a host name in ASCII. -/
def alternativeName (name : String) : Except Fault Bytes :=
  match IpAddress.parse? name with
  | some ip => .ok (Der.element (Der.plainTag 7) (ip.bytes.map UInt8.ofNat))
  | none =>
    if name.toList.all fun c => c.toNat < 128 then
      .ok (Der.element (Der.plainTag 2) (Bytes.ofText name))
    else .error (.certificateGeneration
      ("Invalid SAN '" ++ name ++ "': not an ASCII string"))

/-! ### Authorities -/

/-- Draws a key, or tells that none was found. -/
def newKey (keyType : KeyType) : StateM Entropy (Except Fault PrivateKey) := do
  match ← PrivateKey.new keyType with
  | some k => return .ok k
  | none => return .error (.certificateGeneration
      ("Failed to generate " ++ keyType.name ++ " key: no prime found"))

/-- Issues a new authority its own certificate. -/
def authority (commonName : String) (keyType : KeyType) (validity : Nat) (now : Int) :
    StateM Entropy (Except Fault Authority) := do
  match ← newKey keyType with
  | .error e => return .error e
  | .ok key =>
    match endOfValidity now validity with
    | .error e => return .error e
    | .ok notAfter =>
      let name := subject commonName
      let certificate ← assemble (← serial) (writeName name) key now notAfter name key.publicInfo [
        writeExtension Certificate.keyUsageExtension true (keyUsage authorityUses),
        writeExtension Certificate.subjectKeyExtension false (Der.octetString (shortNameOf key)),
        writeExtension Certificate.constraintsExtension true (Der.sequence [Der.boolean true])]
      return .ok ⟨Pem.ofCertificate certificate, key.toPem⟩

/-! ### Leaves -/

/-- An authority that issues: the content of its name, its key and its key's short name. -/
structure Issuer where
  name : Bytes
  key : PrivateKey
  keyId : Bytes

/-- The kinds of text that an issuer's name may consist of. -/
def issuerNameTags : List UInt8 :=
  [Der.utf8StringTag, Der.printableStringTag, 0x14, Der.ia5StringTag, 0x1c, 0x1e]

/-- The name of an issuer, whose parts stand alone. -/
def issuerName? (name : Bytes) : Option Bytes := do
  let sets ← Der.elements? name
  let parts ← Certificate.nameParts? name
  if parts.length = sets.length && parts.all (fun p => issuerNameTags.contains p.tag) then
    some (writeName (parts.foldl (fun before p => placePart p before) []))
  else none

/-- The issuer of a certificate and a key, which are taken to belong together. -/
def Issuer.of? (certificate : String) (key : PrivateKey) : Option Issuer := do
  let c ← Certificate.read? (← Pem.firstCertificate? certificate)
  let name ← issuerName? c.subject
  let short := match c.extension? Certificate.subjectKeyExtension with
    | some e => (Der.whole (Der.contentOf Der.octetStringTag) e.value).getD (shortNameOf key)
    | none => shortNameOf key
  return ⟨name, key, short⟩

/-- The purpose of a kind of certificate. -/
def purposeOf : CertificateKind → Bytes
  | .server => Certificate.serverPurpose
  | .client => Certificate.clientPurpose

/-- Issues a certificate for a holder's key, signed by an authority. -/
def leaf (request : Request) (holderKey : PrivateKey) (certificate key : String) (now : Int) :
    StateM Entropy (Except Fault String) := do
  match PrivateKey.ofPem? key with
  | none => return .error (.certificateGeneration "Failed to parse CA key: could not parse key pair")
  | some signingKey =>
  match Issuer.of? certificate signingKey with
  | none =>
    return .error (.certificateGeneration "Failed to parse CA cert: could not parse certificate")
  | some issuer =>
  let number ← serial
  let parts : Except Fault (Int × List Bytes) := do
    let notAfter ← endOfValidity now request.validity
    return (notAfter, ← request.names.mapM alternativeName)
  match parts with
  | .error e => return .error e
  | .ok (notAfter, names) =>
    let alternatives := if names.isEmpty then [] else
      [writeExtension Certificate.alternativeNameExtension false (Der.sequence names)]
    let issued ← assemble number issuer.name issuer.key now notAfter (subject request.commonName)
      holderKey.publicInfo ([
        writeExtension Certificate.issuerKeyExtension false
          (Der.sequence [Der.element (Der.plainTag 0) issuer.keyId])] ++ alternatives ++ [
        writeExtension Certificate.keyUsageExtension true (keyUsage leafUses),
        writeExtension Certificate.purposeExtension false
          (Der.sequence [Der.objectId (purposeOf request.kind)]),
        writeExtension Certificate.subjectKeyExtension false (Der.octetString (shortNameOf holderKey)),
        writeExtension Certificate.constraintsExtension true (Der.sequence [])])
    return .ok (Pem.ofCertificate issued)

end Issue

end DeviceAccess
