import DeviceAccess.Crypto.Entropy
import DeviceAccess.Crypto.Modular
import DeviceAccess.Encoding.Der

/-!
# Elliptic curves and their signatures

The prime curves `y² = x³ - 3x + b` of the P family, and the signatures ECDSA on them.  Points are
computed with a common denominator: `(x, y, z)` stands for `(x / z², y / z³)`, and `z = 0` for the
point at infinity.
-/

namespace DeviceAccess

/-- A curve with its base point. -/
structure Curve where
  /-- Size of a coordinate in bytes. -/
  size : Nat
  /-- The field. -/
  p : Nat
  b : Nat
  /-- The number of multiples of the base point. -/
  order : Nat
  baseX : Nat
  baseY : Nat
  /-- The content of the curve's object identifier. -/
  objectId : Bytes
  deriving DecidableEq

namespace Curve

def p256 : Curve where
  size := 32
  p := 0xffffffff00000001000000000000000000000000ffffffffffffffffffffffff
  b := 0x5ac635d8aa3a93e7b3ebbd55769886bc651d06b0cc53b0f63bce3c3e27d2604b
  order := 0xffffffff00000000ffffffffffffffffbce6faada7179e84f3b9cac2fc632551
  baseX := 0x6b17d1f2e12c4247f8bce6e563a440f277037d812deb33a0f4a13945d898c296
  baseY := 0x4fe342e2fe1a7f9b8ee7eb4a7c0f9e162bce33576b315ececbb6406837bf51f5
  objectId := Der.oid [1, 2, 840, 10045, 3, 1, 7]

def p384 : Curve where
  size := 48
  p := 0xfffffffffffffffffffffffffffffffffffffffffffffffffffffffffffffffeffffffff0000000000000000ffffffff
  b := 0xb3312fa7e23ee7e4988e056be3f82d19181d9c6efe8141120314088f5013875ac656398d8a2ed19d2a85c8edd3ec2aef
  order := 0xffffffffffffffffffffffffffffffffffffffffffffffffc7634d81f4372ddf581a0db248b0a77aecec196accc52973
  baseX := 0xaa87ca22be8b05378eb1c71ef320ad746e1d3b628ba79b9859f741e082542a385502f25dbf55296c3a545e3872760ab7
  baseY := 0x3617de4a96262c6f5d9e98bf9292dc29f8f41dbd289a147ce9da3113b5f0b8c00a60b1ce1d7e819d7a431d7c90ea0e5f
  objectId := Der.oid [1, 3, 132, 0, 34]

def p521 : Curve where
  size := 66
  p := Nat.pow 2 521 - 1
  b := 0x51953eb9618e1c9a1f929a21a0b68540eea2da725b99b315f3b8b489918ef109e156193951ec7e937b1652c0bd3bb1bf073573df883d2c34f1ef451fd46b503f00
  order := 0x1fffffffffffffffffffffffffffffffffffffffffffffffffffffffffffffffffa51868783bf2f966b7fcc0148f709a5d03bb5c9b8899c47aebb6fb71e91386409
  baseX := 0xc6858e06b70404e9cd9e3ecb662395b4429c648139053fb521f828af606b4d3dbaa14b5e77efe75928fe1dc127a2ffa8de3348b3c1856a429bf97e7e31c2e5bd66
  baseY := 0x11839296a789a3bc0045c8a5fb42c7d1bd998f54449579b446817afbd17273e662c97ee72995ef42640c550b9013fad0761353c7086a272c24088be94769fd16650
  objectId := Der.oid [1, 3, 132, 0, 35]

/-- The curves in use. -/
def all : List Curve := [p256, p384, p521]

/-! ### Points -/

/-- A point with a common denominator. -/
structure Point where
  x : Nat
  y : Nat
  z : Nat

/-- The difference modulo the field. -/
def sub (c : Curve) (a b : Nat) : Nat := (a + (c.p - b % c.p)) % c.p

def infinity : Point := ⟨1, 1, 0⟩

/-- The base point. -/
def base (c : Curve) : Point := ⟨c.baseX, c.baseY, 1⟩

/-- Twice a point. -/
def double (c : Curve) (q : Point) : Point :=
  if q.z = 0 then q
  else
    let zz := q.z * q.z % c.p
    let yy := q.y * q.y % c.p
    let s := 4 * q.x * yy % c.p
    let m := 3 * (c.sub q.x zz) * (q.x + zz) % c.p
    let x := c.sub (m * m) (2 * s)
    ⟨x, c.sub (m * c.sub s x) (8 * yy * yy), 2 * q.y * q.z % c.p⟩

/-- The sum of two points. -/
def add (c : Curve) (q r : Point) : Point :=
  if q.z = 0 then r
  else if r.z = 0 then q
  else
    let zz := q.z * q.z % c.p
    let ww := r.z * r.z % c.p
    let u := q.x * ww % c.p
    let v := r.x * zz % c.p
    let s := q.y * (ww * r.z % c.p) % c.p
    let t := r.y * (zz * q.z % c.p) % c.p
    let h := c.sub v u
    let d := c.sub t s
    if h = 0 then (if d = 0 then c.double q else infinity)
    else
      let hh := h * h % c.p
      let hhh := h * hh % c.p
      let uhh := u * hh % c.p
      let x := c.sub (d * d) (hhh + 2 * uhh)
      ⟨x, c.sub (d * c.sub uhh x) (s * hhh), h * (q.z * r.z % c.p) % c.p⟩

/-- A multiple of a point. -/
def mul (c : Curve) (k : Nat) (q : Point) : Point :=
  if _h : k = 0 then infinity
  else
    let half := c.double (c.mul (k / 2) q)
    if k % 2 = 1 then c.add half q else half
termination_by k

/-- The coordinates of a point other than the one at infinity. -/
def affine? (c : Curve) (q : Point) : Option (Nat × Nat) :=
  if q.z = 0 then none
  else
    let w := Modular.inverse q.z c.p
    let ww := w * w % c.p
    some (q.x * ww % c.p, q.y * (ww * w % c.p) % c.p)

/-- Whether coordinates are those of a point of the curve. -/
def holds (c : Curve) (x y : Nat) : Bool :=
  x < c.p && y < c.p && y * y % c.p = (x * x * x + (c.p - 3) * x + c.b) % c.p

/-- The written form of a point: its two coordinates. -/
def writePoint (c : Curve) (q : Point) : Bytes :=
  match c.affine? q with
  | some (x, y) => 4 :: Bytes.ofNat c.size x ++ Bytes.ofNat c.size y
  | none => [0]

/-- Reads a point of the curve. -/
def readPoint? (c : Curve) : Bytes → Option Point
  | 4 :: rest =>
    let x := Bytes.toNat (rest.take c.size)
    let y := Bytes.toNat (rest.drop c.size)
    if rest.length = 2 * c.size && c.holds x y then some ⟨x, y, 1⟩ else none
  | _ => none

/-! ### Signatures -/

/-- The number that a hash stands for: its first bits, as many as the order has. -/
def hashNumber (c : Curve) (hash : Bytes) : Nat :=
  hash.toNat >>> (8 * hash.length - (c.order.log2 + 1))

/-- The signature of a hash under a secret, with a number that is used once. -/
def sign (c : Curve) (secret nonce : Nat) (hash : Bytes) : Bytes :=
  let r := match c.affine? (c.mul nonce c.base) with
    | some (x, _) => x % c.order
    | none => 0
  let s := Modular.inverse nonce c.order * (c.hashNumber hash + r * secret) % c.order
  Der.sequence [Der.nat r, Der.nat s]

/-- Whether two numbers are the signature of a hash. -/
def verifyNumbers (c : Curve) (key : Point) (hash : Bytes) (r s : Nat) : Bool :=
  if r = 0 ∨ s = 0 ∨ c.order ≤ r ∨ c.order ≤ s then false
  else
    let w := Modular.inverse s c.order
    let u := c.hashNumber hash * w % c.order
    let v := r * w % c.order
    match c.affine? (c.add (c.mul u c.base) (c.mul v key)) with
    | some (x, _) => x % c.order = r
    | none => false

/-- Whether a signature is that of a hash. -/
def verify (c : Curve) (key : Point) (hash signature : Bytes) : Bool :=
  let numbers := Der.whole (Der.inside Der.sequenceTag do
    let r ← Der.readNat
    let s ← Der.readNat
    return (r, s)) signature
  match numbers with
  | some (r, s) => c.verifyNumbers key hash r s
  | none => false

end Curve

end DeviceAccess
