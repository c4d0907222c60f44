import DeviceAccess.Crypto.Entropy
import DeviceAccess.Crypto.Modular
import DeviceAccess.Encoding.Der

/-!
# RSA

Keys and signatures: the hash is written as a tagged value, filled up to the size of the modulus,
and raised to the private exponent.
-/

namespace DeviceAccess

namespace Rsa

/-- A public key. -/
structure PublicKey where
  modulus : Nat
  exponent : Nat
  deriving DecidableEq

/-- A private key with the two primes of its modulus. -/
structure PrivateKey where
  modulus : Nat
  exponent : Nat
  secret : Nat
  p : Nat
  q : Nat
  deriving DecidableEq

/-- The public half of a key. -/
def PrivateKey.publicKey (k : PrivateKey) : PublicKey := ⟨k.modulus, k.exponent⟩

/-- The number of bits of a number. -/
def bitsOf (n : Nat) : Nat := n.log2 + 1

/-- Whether the parts of a key belong together. -/
def PrivateKey.isConsistent (k : PrivateKey) : Bool :=
  k.p * k.q = k.modulus && 1 < k.p && 1 < k.q
    && k.exponent * k.secret % (k.p - 1) = 1 % (k.p - 1)
    && k.exponent * k.secret % (k.q - 1) = 1 % (k.q - 1)

/-! ### Written forms -/

/-- The written form of a public key. -/
def PublicKey.write (k : PublicKey) : Bytes :=
  Der.sequence [Der.nat k.modulus, Der.nat k.exponent]

/-- Reads a public key. -/
def PublicKey.read? (b : Bytes) : Option PublicKey :=
  Der.whole (Der.inside Der.sequenceTag do
    let modulus ← Der.readNat
    let exponent ← Der.readNat
    return ⟨modulus, exponent⟩) b

/-- The written form of a private key. -/
def PrivateKey.write (k : PrivateKey) : Bytes :=
  Der.sequence [Der.nat 0, Der.nat k.modulus, Der.nat k.exponent, Der.nat k.secret,
    Der.nat k.p, Der.nat k.q, Der.nat (k.secret % (k.p - 1)), Der.nat (k.secret % (k.q - 1)),
    Der.nat (Modular.inverse k.q k.p)]

/-- Reads a private key. -/
def PrivateKey.read? (b : Bytes) : Option PrivateKey :=
  Der.whole (Der.inside Der.sequenceTag do
    let version ← Der.readNat
    let modulus ← Der.readNat
    let exponent ← Der.readNat
    let secret ← Der.readNat
    let p ← Der.readNat
    let q ← Der.readNat
    let _ ← Der.readNat
    let _ ← Der.readNat
    let _ ← Der.readNat
    if version = 0 then return ⟨modulus, exponent, secret, p, q⟩ else failure) b

/-! ### Signatures -/

/-- The object identifier of a hash function. -/
def hashId : HashFunction → Bytes
  | .sha256 => Der.oid [2, 16, 840, 1, 101, 3, 4, 2, 1]
  | .sha384 => Der.oid [2, 16, 840, 1, 101, 3, 4, 2, 2]
  | .sha512 => Der.oid [2, 16, 840, 1, 101, 3, 4, 2, 3]

/-- The tagged hash of a message, filled up to a size. -/
def encoded (size : Nat) (f : HashFunction) (message : Bytes) : Bytes :=
  let tagged := Der.sequence [Der.sequence [Der.objectId (hashId f), Der.null],
    Der.octetString (f.hash message)]
  0 :: 1 :: List.replicate (size - 3 - tagged.length) 0xff ++ 0 :: tagged

/-- The size of a key in bytes. -/
def sizeOf (modulus : Nat) : Nat := Bytes.sizeOf modulus

/-- The signature of a message. -/
def sign (k : PrivateKey) (f : HashFunction) (message : Bytes) : Bytes :=
  let size := sizeOf k.modulus
  Bytes.ofNat size (Modular.pow (encoded size f message).toNat k.secret k.modulus)

/-- Whether a signature is that of a message. -/
def verify (k : PublicKey) (f : HashFunction) (message signature : Bytes) : Bool :=
  let size := sizeOf k.modulus
  signature.length = size && signature.toNat < k.modulus
    && Modular.pow signature.toNat k.exponent k.modulus = (encoded size f message).toNat

/-! ### New keys -/

/-- The exponent of new keys. -/
def standardExponent : Nat := 65537

/-- The first suitable prime among the next `count` odd numbers. -/
def searchPrime : Nat → Nat → Option Nat
  | 0, _ => none
  | count + 1, n =>
    if n % standardExponent ≠ 1 && Modular.isProbablePrime n then some n
    else searchPrime count (n + 2)

/-- Draws a prime of a size whose two highest bits are set. -/
def newPrime (size : Nat) : StateM Entropy (Option Nat) := do
  let b ← Entropy.bytes size
  let high := 3 * Nat.pow 2 (8 * size - 2)
  return searchPrime (400 * size) (high + b.toNat % Nat.pow 2 (8 * size - 2) / 2 * 2 + 1)

/-- Draws a key with a modulus of 2048 bits. -/
def newKey : StateM Entropy (Option PrivateKey) := do
  let p ← newPrime 128
  let q ← newPrime 128
  return do
    let p ← p
    let q ← q
    let secret ← Modular.inverse? standardExponent (Nat.lcm (p - 1) (q - 1))
    return ⟨p * q, standardExponent, secret, p, q⟩

end Rsa

end DeviceAccess
