import DeviceAccess.Calendar
import DeviceAccess.Encoding.Der
import DeviceAccess.Net.IpAddress

/-!
# Certificates

A certificate says, in a signed part, whose key it certifies, who issued it, from when to when it
holds, and, in extensions, what it may be used for.  `Certificate.read?` takes any certificate of
that shape, also one with bytes after it; what path validation demands beyond that is in
`Certificate.isStrict`.
-/

namespace DeviceAccess

/-- An extension of a certificate. -/
structure Extension where
  id : Bytes
  critical : Bool
  value : Bytes
  deriving DecidableEq

/-- One part of a name: what it is, and its value with the kind of its text. -/
structure NamePart where
  id : Bytes
  tag : UInt8
  value : Bytes
  deriving DecidableEq

/-- A certificate, read. -/
structure Certificate where
  /-- The signed part as it was written. -/
  signed : Bytes
  /-- The version number, if it is written. -/
  version : Option Nat
  /-- The name of the signature algorithm inside the signed part. -/
  innerName : Bytes
  /-- The issuer's name as it was written. -/
  issuer : Bytes
  notBefore : Int
  notAfter : Int
  /-- The subject's name as it was written. -/
  subject : Bytes
  keyName : Bytes
  keyBits : Bytes
  /-- Whether the unique numbers that nobody uses are given. -/
  hasUniqueIds : Bool
  extensions : Option (List Extension)
  signatureName : Bytes
  signature : Bytes
  /-- Whether bytes follow the certificate. -/
  hasMore : Bool
  deriving DecidableEq

namespace Certificate

/-! ### Object identifiers -/

def countryId : Bytes := Der.oid [2, 5, 4, 6]
def organizationId : Bytes := Der.oid [2, 5, 4, 10]
def commonNameId : Bytes := Der.oid [2, 5, 4, 3]
def subjectKeyExtension : Bytes := Der.oid [2, 5, 29, 14]
def keyUsageExtension : Bytes := Der.oid [2, 5, 29, 15]
def alternativeNameExtension : Bytes := Der.oid [2, 5, 29, 17]
def constraintsExtension : Bytes := Der.oid [2, 5, 29, 19]
def nameConstraintsExtension : Bytes := Der.oid [2, 5, 29, 30]
def revocationListExtension : Bytes := Der.oid [2, 5, 29, 31]
def issuerKeyExtension : Bytes := Der.oid [2, 5, 29, 35]
def purposeExtension : Bytes := Der.oid [2, 5, 29, 37]
def serverPurpose : Bytes := Der.oid [1, 3, 6, 1, 5, 5, 7, 3, 1]
def clientPurpose : Bytes := Der.oid [1, 3, 6, 1, 5, 5, 7, 3, 2]

/-! ### Reading -/

/-- Reads a point in time. -/
def readTime : Der.Reader Int := do
  let e ← Der.next
  let text := (Bytes.toLatin e.content).toList
  let moment := if e.tag = Der.utcTimeTag then Calendar.ofShort? text
    else if e.tag = Der.generalizedTimeTag then Calendar.ofLong? text
    else none
  match moment with
  | some m => return m.seconds
  | none => failure

/-- Reads a truth value. -/
def boolOf? (content : Bytes) : Option Bool :=
  if content = [0xff] then some true else if content = [0] then some false else none

/-- Reads an extension, which is not critical unless it says so. -/
def readExtension : Der.Reader Extension :=
  Der.inside Der.sequenceTag do
    let id ← Der.contentOf Der.objectIdTag
    let critical ← Der.optional Der.booleanTag
    let value ← Der.contentOf Der.octetStringTag
    match critical with
    | none => return ⟨id, false, value⟩
    | some e =>
      match boolOf? e.content with
      | some b => return ⟨id, b, value⟩
      | none => failure

/-- The extensions that the content of a list holds. -/
def extensionsOf? (content : Bytes) : Option (List Extension) := do
  (← Der.elements? content).mapM fun e => Der.whole readExtension e.written

/-- The parts of a name. -/
def nameParts? (name : Bytes) : Option (List NamePart) := do
  let sets ← Der.elements? name
  let parts ← sets.mapM fun s => do
    if s.tag ≠ Der.setTag then none
    else
      (← Der.elements? s.content).mapM fun e =>
        Der.whole (Der.inside Der.sequenceTag do
          let id ← Der.contentOf Der.objectIdTag
          let value ← Der.next
          return ⟨id, value.tag, value.content⟩) e.written
  return parts.flatten

/-- Reads a name. -/
def readName : Der.Reader Bytes := do
  let name ← Der.contentOf Der.sequenceTag
  if (nameParts? name).isSome then return name else failure

/-- Reads a key: the name of its algorithm, and its bits. -/
def readKey : Der.Reader (Bytes × Bytes) :=
  Der.inside Der.sequenceTag do
    let name ← Der.contentOf Der.sequenceTag
    let bits ← Der.readBitString
    return (name, bits)

/-- Reads what a certificate certifies, given how it was written. -/
def readSigned (written : Bytes) : Der.Reader Certificate := do
  let version ← Der.optional (Der.nestedTag 0)
  let number ← match version with
    | none => pure none
    | some e =>
      match Der.whole Der.readNat e.content with
      | some n => pure (some n)
      | none => failure
  let _ ← Der.contentOf Der.integerTag
  let innerName ← Der.contentOf Der.sequenceTag
  let issuer ← readName
  let (notBefore, notAfter) ← Der.inside Der.sequenceTag do
    let a ← readTime
    let b ← readTime
    return (a, b)
  let subject ← readName
  let (keyName, keyBits) ← readKey
  let issuerId ← Der.optional (Der.plainTag 1)
  let subjectId ← Der.optional (Der.plainTag 2)
  let extensions ← Der.optional (Der.nestedTag 3)
  let list ← match extensions with
    | none => pure none
    | some e =>
      match (Der.whole (Der.contentOf Der.sequenceTag) e.content).bind extensionsOf? with
      | some l => pure (some l)
      | none => failure
  return {
    signed := written, version := number, innerName, issuer, notBefore, notAfter, subject,
    keyName, keyBits, hasUniqueIds := issuerId.isSome || subjectId.isSome, extensions := list,
    signatureName := [], signature := [], hasMore := false }

/-- Reads a certificate at the start of a byte string. -/
def read? (input : Bytes) : Option Certificate := do
  let (outer, rest) ← (Der.expect Der.sequenceTag).run input
  Der.whole (do
    let signed ← Der.expect Der.sequenceTag
    let signatureName ← Der.contentOf Der.sequenceTag
    let signature ← Der.readBitString
    match Der.whole (readSigned signed.written) signed.content with
    | some c => return { c with signatureName, signature, hasMore := !rest.isEmpty }
    | none => failure) outer.content

/-! ### What a certificate says -/

/-- The extensions of an id. -/
def extensionsWith (c : Certificate) (id : Bytes) : List Extension :=
  (c.extensions.getD []).filter fun e => e.id = id

/-- The extension of an id, if there is exactly one. -/
def extension? (c : Certificate) (id : Bytes) : Option Extension :=
  match c.extensionsWith id with
  | [e] => some e
  | _ => none

/-- The kinds of text that names are read from. -/
def nameTags : List UInt8 :=
  [Der.utf8StringTag, Der.numericStringTag, Der.printableStringTag, Der.ia5StringTag]

/-- The text of a part of a name. -/
def NamePart.text? (p : NamePart) : Option String :=
  if nameTags.contains p.tag then Bytes.toText? p.value else none

/-- The subject's first common name. -/
def commonName? (c : Certificate) : Option String :=
  (((nameParts? c.subject).getD []).find? fun p => p.id = commonNameId).bind NamePart.text?

/-- A name that a certificate holds besides the subject's. -/
inductive AlternativeName where
  | dns (name : String)
  | ip (bytes : Bytes)
  | other
  deriving DecidableEq

/-- Reads an alternative name. -/
def alternativeName? (e : Der.Element) : Option AlternativeName :=
  if e.tag = Der.plainTag 2 then
    if e.content.all (· < 0x80) then some (.dns (Bytes.toLatin e.content)) else none
  else if e.tag = Der.plainTag 7 then some (.ip e.content)
  else if [Der.nestedTag 0, Der.plainTag 1, Der.nestedTag 3, Der.nestedTag 4, Der.nestedTag 5,
      Der.plainTag 6, Der.plainTag 8].contains e.tag then some .other
  else none

/-- The alternative names, if they are given once and can be read. -/
def alternativeNames (c : Certificate) : List AlternativeName :=
  match c.extension? alternativeNameExtension with
  | none => []
  | some e =>
    ((do
      let content ← Der.whole (Der.contentOf Der.sequenceTag) e.value
      (← Der.elements? content).mapM alternativeName?) : Option (List AlternativeName)).getD []

/-- The host names among the alternative names. -/
def dnsNames (c : Certificate) : List String :=
  c.alternativeNames.filterMap fun n => match n with
    | .dns name => some name
    | _ => none

/-- The addresses among the alternative names, in their canonical form. -/
def ipAddresses (c : Certificate) : List String :=
  c.alternativeNames.filterMap fun n => match n with
    | .ip bytes => (IpAddress.ofBytes? (bytes.map UInt8.toNat)).map IpAddress.shown
    | _ => none

/-- What a certificate says about being an authority: whether it is one, and how many
authorities may stand below it. -/
structure Constraints where
  isAuthority : Bool
  depth : Option Nat
  deriving DecidableEq, Repr

/-- Reads the constraints. -/
def constraintsOf? (value : Bytes) : Option Constraints :=
  Der.whole (Der.inside Der.sequenceTag do
    let flag ← Der.optional Der.booleanTag
    let depth ← Der.optional Der.integerTag
    let isAuthority := match flag with
      | none => some false
      | some e => boolOf? e.content
    let number := match depth with
      | none => some none
      | some e => (Der.natValue? e.content).map some
    match isAuthority, number with
    | some b, some n => return ⟨b, n⟩
    | _, _ => failure) value

/-- The constraints; without any, a certificate is no authority. -/
def constraints? (c : Certificate) : Option Constraints :=
  match c.extensionsWith constraintsExtension with
  | [] => some ⟨false, none⟩
  | e :: _ => constraintsOf? e.value

/-- The purposes that a certificate is confined to: none given is no confinement. -/
def purposes? (c : Certificate) : Option (Option (List Bytes)) :=
  match c.extensionsWith purposeExtension with
  | [] => some none
  | e :: _ => do
    let content ← Der.whole (Der.contentOf Der.sequenceTag) e.value
    let ids ← (← Der.elements? content).mapM fun e =>
      if e.tag = Der.objectIdTag then some e.content else none
    return some ids

/-! ### Strictness -/

/-- The extensions that path validation knows. -/
def knownExtensions : List Bytes := [
  keyUsageExtension, alternativeNameExtension, constraintsExtension, nameConstraintsExtension,
  revocationListExtension, purposeExtension]

/-- Whether an extension may stand in a certificate on a path: a critical one has to be known,
and a known one other than the key usage has to be a sequence. -/
def acceptsExtension (e : Extension) : Bool :=
  if knownExtensions.contains e.id then
    e.id = keyUsageExtension
      || (Der.whole (Der.contentOf Der.sequenceTag) e.value).isSome
  else !e.critical

/-- Whether a certificate has the exact shape that path validation demands: the third version,
one name for its signature algorithm, no unused parts, and no known extension twice. -/
def isStrict (c : Certificate) : Bool :=
  c.version = some 2 && c.innerName = c.signatureName && !c.hasUniqueIds && !c.hasMore
    && c.extensions ≠ some []
    && (c.extensions.getD []).all acceptsExtension
    && knownExtensions.all fun id => (c.extensionsWith id).length ≤ 1

end Certificate

end DeviceAccess
