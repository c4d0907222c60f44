import DeviceAccess.Certificate.Kind
import DeviceAccess.Certificate.Signature
import DeviceAccess.Encoding.Pem

/-!
# Private keys

A private key of any supported algorithm, its public half, its written forms, and signing.  A key
may be written in a form that names its algorithm, or in the older forms of RSA and of curves; the
first bytes tell which.
-/

namespace DeviceAccess

/-- A private key. -/
inductive PrivateKey where
  | rsa (key : Rsa.PrivateKey)
  | curve (curve : Curve) (secret : Nat)
  | edwards (seed : Bytes)
  deriving DecidableEq

namespace PrivateKey

/-- The algorithm of a key, if it is one that configuration can name. -/
def keyType? : PrivateKey → Option KeyType
  | rsa _ => some .rsa2048
  | curve c _ => if c = .p256 then some .ecdsaP256 else none
  | edwards _ => none

/-! ### The public half -/

/-- The name of the key's algorithm. -/
def keyName : PrivateKey → Bytes
  | rsa _ => Signature.rsaKey
  | curve c _ => Signature.curveKey c
  | edwards _ => Signature.edwards

/-- The bits of the public half. -/
def publicBits : PrivateKey → Bytes
  | rsa k => k.publicKey.write
  | curve c secret => c.writePoint (c.mul secret c.base)
  | edwards seed => Edwards.publicKey seed

/-- The public half with the name of its algorithm. -/
def publicInfo (k : PrivateKey) : Bytes :=
  Der.sequence [Der.element Der.sequenceTag k.keyName, Der.bitString k.publicBits]

/-! ### Signing -/

/-- The hash function that goes with a curve. -/
def hashOf (c : Curve) : HashFunction :=
  if c.size ≤ 32 then .sha256 else if c.size ≤ 48 then .sha384 else .sha512

/-- The name of the key's signatures. -/
def signatureName : PrivateKey → Bytes
  | rsa _ => Signature.rsa .sha256
  | curve c _ => Signature.curve (hashOf c)
  | edwards _ => Signature.edwards

/-- The signature of a message. -/
def sign (k : PrivateKey) (message : Bytes) : StateM Entropy Bytes := do
  match k with
  | rsa k => return Rsa.sign k .sha256 message
  | curve c secret => return c.sign secret (← Entropy.below c.order) ((hashOf c).hash message)
  | edwards seed => return Edwards.sign seed message

/-! ### New keys -/

/-- Draws a key. -/
def new : KeyType → StateM Entropy (Option PrivateKey)
  | .rsa2048 => return (← Rsa.newKey).map rsa
  | .ecdsaP256 => return some (curve .p256 (← Entropy.below Curve.p256.order))

/-! ### Written forms -/

/-- The written form of a key on a curve. -/
def writeCurve (c : Curve) (secret : Nat) : Bytes :=
  Der.sequence [Der.nat 1, Der.octetString (Bytes.ofNat c.size secret),
    Der.element (Der.nestedTag 1) (Der.bitString (c.writePoint (c.mul secret c.base)))]

/-- The written form of a key with the name of its algorithm. -/
def write (k : PrivateKey) : Bytes :=
  let content := match k with
    | rsa k => k.write
    | curve c secret => writeCurve c secret
    | edwards seed => Der.octetString seed
  Der.sequence [Der.nat 0, Der.element Der.sequenceTag k.keyName, Der.octetString content]

/-- The text of a key. -/
def toPem (k : PrivateKey) : String := Pem.write Pem.privateKeyLabel k.write

/-- Takes a key on RSA if its size is accepted and its parts belong together. -/
def acceptRsa? (k : Rsa.PrivateKey) : Option PrivateKey :=
  if Signature.acceptsRsaSize k.modulus && k.isConsistent then some (rsa k) else none

/-- Reads a key on a curve: the curve is told from outside or by the key, and what the key says
of its public half has to be right. -/
def readCurve (outside : Option Curve) : Der.Reader PrivateKey :=
  Der.inside Der.sequenceTag do
    let version ← Der.readNat
    let digits ← Der.contentOf Der.octetStringTag
    let named ← Der.optional (Der.nestedTag 0)
    let bits ← Der.optional (Der.nestedTag 1)
    let own := named.bind fun e => Curve.all.find? fun c => e.content = Der.objectId c.objectId
    match outside <|> own with
    | none => failure
    | some c =>
      let secret := Bytes.toNat digits
      let publicHalf := Der.bitString (c.writePoint (c.mul secret c.base))
      let fits := version = 1 && secret ≠ 0 && secret < c.order
        && (named.isNone || own = some c)
        && (match bits with
          | some e => e.content = publicHalf
          | none => true)
      if fits then return curve c secret else failure

/-- Reads a key with the name of its algorithm. -/
def readNamed : Der.Reader PrivateKey :=
  Der.inside Der.sequenceTag do
    let _ ← Der.readNat
    let name ← Der.contentOf Der.sequenceTag
    let content ← Der.contentOf Der.octetStringTag
    let _ ← Der.optional (Der.nestedTag 0)
    let _ ← Der.optional (Der.plainTag 1)
    let key? :=
      if name = Signature.rsaKey then (Rsa.PrivateKey.read? content).bind acceptRsa?
      else if name = Signature.edwards then do
        let seed ← Der.whole (Der.contentOf Der.octetStringTag) content
        if seed.length = 32 then some (edwards seed) else none
      else do
        let c ← Curve.all.find? fun c => name = Signature.curveKey c
        Der.whole (readCurve (some c)) content
    match key? with
    | some k => return k
    | none => failure

/-- Reads a key in any of its written forms. -/
def read? (b : Bytes) : Option PrivateKey := do
  let (size, _) ← Der.readLength? (b.drop 1)
  match b.drop (1 + size) with
  | 0x02 :: 0x01 :: _ :: 0x30 :: _ => Der.whole readNamed b
  | 0x02 :: 0x01 :: 0x00 :: _ => (Rsa.PrivateKey.read? b).bind acceptRsa?
  | 0x02 :: 0x01 :: 0x01 :: _ => Der.whole (readCurve none) b
  | _ => none

/-- Reads the text of a key. -/
def ofPem? (text : String) : Option PrivateKey := do read? (← Pem.key? text)

end PrivateKey

end DeviceAccess
