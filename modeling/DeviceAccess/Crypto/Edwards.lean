import DeviceAccess.Crypto.Modular
import DeviceAccess.Crypto.Sha2

/-!
# The Edwards curve and its signatures

The curve `y² - x² = 1 + d x² y²` over the numbers modulo `2 ^ 255 - 19`, and the signatures
Ed25519 on it.  A point has a common denominator `z` and carries the product of its coordinates.
-/

namespace DeviceAccess

namespace Edwards

/-- The field. -/
def p : Nat := Nat.pow 2 255 - 19

/-- The number of multiples of the base point. -/
def order : Nat := Nat.pow 2 252 + 27742317777372353535851937790883648493

/-- The difference modulo the field. -/
def sub (a b : Nat) : Nat := (a + (p - b % p)) % p

/-- The coefficient of the curve. -/
def d : Nat := sub 0 (121665 * Modular.inverse 121666 p)

/-- A point with a common denominator, and the product of its coordinates. -/
structure Point where
  x : Nat
  y : Nat
  z : Nat
  t : Nat

def zero : Point := ⟨0, 1, 1, 0⟩

/-- The sum of two points. -/
def add (q r : Point) : Point :=
  let a := sub q.y q.x * sub r.y r.x % p
  let b := (q.y + q.x) * (r.y + r.x) % p
  let c := 2 * q.t * r.t % p * d % p
  let e := 2 * q.z * r.z % p
  let f := sub b a
  let g := sub e c
  let h := (e + c) % p
  let i := (b + a) % p
  ⟨f * g % p, h * i % p, g * h % p, f * i % p⟩

/-- A multiple of a point. -/
def mul (k : Nat) (q : Point) : Point :=
  if _h : k = 0 then zero
  else
    let half := mul (k / 2) q
    let twice := add half half
    if k % 2 = 1 then add twice q else twice
termination_by k

/-- A square root of minus one. -/
def rootOfMinusOne : Nat := Modular.pow 2 ((p - 1) / 4) p

/-- The first coordinate of a point, from the second one and its last bit. -/
def recoverX? (y : Nat) (odd : Bool) : Option Nat :=
  if p ≤ y then none
  else
    let square := sub (y * y) 1 * Modular.inverse ((d * y % p * y + 1) % p) p % p
    let root := Modular.pow square ((p + 3) / 8) p
    let root := if root * root % p = square then root else root * rootOfMinusOne % p
    if root * root % p ≠ square then none
    else if root = 0 && odd then none
    else if (root % 2 = 1) = odd then some root
    else some (p - root)

/-- The base point. -/
def base : Point :=
  let y := 4 * Modular.inverse 5 p % p
  let x := (recoverX? y false).getD 0
  ⟨x, y, 1, x * y % p⟩

/-- The little-endian value of bytes. -/
def valueOf (b : Bytes) : Nat := Bytes.toNat b.reverse

/-- The written form of a point. -/
def writePoint (q : Point) : Bytes :=
  let w := Modular.inverse q.z p
  let x := q.x * w % p
  let y := q.y * w % p
  (Bytes.ofNat 32 (y + x % 2 * Nat.pow 2 255)).reverse

/-- Reads a point. -/
def readPoint? (b : Bytes) : Option Point := do
  if b.length ≠ 32 then none
  else
    let n := valueOf b
    let y := n % Nat.pow 2 255
    let x ← recoverX? y (Nat.pow 2 255 ≤ n)
    return ⟨x, y, 1, x * y % p⟩

/-- The multiplier and the hash key that a seed leads to. -/
def expand (seed : Bytes) : Nat × Bytes :=
  let h := sha512 seed
  let n := valueOf (h.take 32) % Nat.pow 2 254
  (n - n % 8 + Nat.pow 2 254, h.drop 32)

/-- The public key of a seed. -/
def publicKey (seed : Bytes) : Bytes := writePoint (mul (expand seed).1 base)

/-- The signature of a message under a seed. -/
def sign (seed message : Bytes) : Bytes :=
  let (secret, hashKey) := expand seed
  let key := publicKey seed
  let r := valueOf (sha512 (hashKey ++ message)) % order
  let commitment := writePoint (mul r base)
  let challenge := valueOf (sha512 (commitment ++ key ++ message)) % order
  commitment ++ (Bytes.ofNat 32 ((r + challenge * secret) % order)).reverse

/-- Whether a signature is that of a message. -/
def verify (key message signature : Bytes) : Bool :=
  let commitment := signature.take 32
  let s := valueOf (signature.drop 32)
  if signature.length ≠ 64 ∨ order ≤ s then false
  else
    match readPoint? key with
    | none => false
    | some q =>
      let challenge := valueOf (sha512 (commitment ++ key ++ message)) % order
      let minus : Point := ⟨sub 0 q.x, q.y, q.z, sub 0 q.t⟩
      writePoint (add (mul s base) (mul challenge minus)) = commitment

end Edwards

end DeviceAccess
