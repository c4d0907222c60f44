import DeviceAccess.Crypto.Curve
import DeviceAccess.Crypto.Edwards
import DeviceAccess.Crypto.Rsa

/-!
# Signature algorithms

A certificate names the algorithm of the key it certifies and the algorithm of its own signature;
both names are the contents of an algorithm identifier.  A signature is checked by the one algorithm
that both names fit, byte for byte.
-/

namespace DeviceAccess

namespace Signature

/-! ### Names of algorithms -/

/-- The content of an algorithm identifier. -/
def algorithm (objectId : Bytes) (parameters : Bytes) : Bytes := Der.objectId objectId ++ parameters

def rsaKeyId : Bytes := Der.oid [1, 2, 840, 113549, 1, 1, 1]
def curveKeyId : Bytes := Der.oid [1, 2, 840, 10045, 2, 1]
def edwardsId : Bytes := Der.oid [1, 3, 101, 112]

/-- The name of RSA keys. -/
def rsaKey : Bytes := algorithm rsaKeyId Der.null

/-- The name of keys on a curve. -/
def curveKey (c : Curve) : Bytes := algorithm curveKeyId (Der.objectId c.objectId)

/-- The name of keys and signatures on the Edwards curve. -/
def edwards : Bytes := algorithm edwardsId []

/-- The object identifier of RSA signatures with a hash function. -/
def rsaId : HashFunction → Bytes
  | .sha256 => Der.oid [1, 2, 840, 113549, 1, 1, 11]
  | .sha384 => Der.oid [1, 2, 840, 113549, 1, 1, 12]
  | .sha512 => Der.oid [1, 2, 840, 113549, 1, 1, 13]

/-- The name of RSA signatures with a hash function. -/
def rsa (f : HashFunction) : Bytes := algorithm (rsaId f) Der.null

/-- The name of signatures on a curve with a hash function. -/
def curve (f : HashFunction) : Bytes :=
  algorithm (match f with
    | .sha256 => Der.oid [1, 2, 840, 10045, 4, 3, 2]
    | .sha384 => Der.oid [1, 2, 840, 10045, 4, 3, 3]
    | .sha512 => Der.oid [1, 2, 840, 10045, 4, 3, 4]) []

/-! ### Checking -/

/-- The hash functions in use. -/
def hashFunctions : List HashFunction := [.sha256, .sha384, .sha512]

/-- Whether the size of an RSA key is accepted. -/
def acceptsRsaSize (modulus : Nat) : Bool :=
  2048 ≤ Rsa.bitsOf modulus && Rsa.bitsOf modulus ≤ 8192

/-- Whether `signature` is that of `message` by the algorithm `name` under a key of the
algorithm `keyName` with the bits `key`. -/
def verify (keyName key name message signature : Bytes) : Bool :=
  if name = edwards then
    keyName = edwards && Edwards.verify key message signature
  else
    hashFunctions.any fun f =>
      if name = curve f then
        Curve.all.any fun c =>
          keyName = curveKey c && match c.readPoint? key with
            | some q => c.verify q (f.hash message) signature
            | none => false
      else if name = rsa f || name = algorithm (rsaId f) [] then
        keyName = rsaKey && match Rsa.PublicKey.read? key with
          | some k => acceptsRsaSize k.modulus && Rsa.verify k f message signature
          | none => false
      else false

end Signature

end DeviceAccess
