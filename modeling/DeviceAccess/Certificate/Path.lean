import DeviceAccess.Certificate.Basic
import DeviceAccess.Certificate.Signature
import DeviceAccess.Encoding.Pem

/-!
# Certification paths

A chain of certificates is issued by an authority when a path leads from its first certificate to
the authority's: every certificate on the path holds now, the first one is no authority and the
others are, none stands deeper below an authority than that allows, and each is signed by the key
of the next.  The rest of the chain is a stock of certificates that the path may use in any order.

The authority's own certificate is trusted as it is: neither its dates nor its constraints count.
-/

namespace DeviceAccess

/-- A trusted authority: its name and its key. -/
structure Anchor where
  subject : Bytes
  keyName : Bytes
  keyBits : Bytes
  deriving DecidableEq

namespace Anchor

/-- The anchor of a certificate.  One of the first version, which has no extensions, will do. -/
def ofCertificate? (c : Certificate) : Option Anchor :=
  let oldForm := c.version = none && c.extensions = none && !c.hasUniqueIds && !c.hasMore
  if c.isStrict || oldForm then some ⟨c.subject, c.keyName, c.keyBits⟩ else none

end Anchor

/-- What judges paths: it reads trusted certificates, and tells whether a certificate leads to one of
those that are trusted. -/
structure PathValidator (α : Type) where
  /-- What is trusted in a certificate, if it can be an authority's. -/
  anchor? : Bytes → Option α
  /-- Whether a certificate leads to one of some anchors at a point in time; others may be used on the
  way. -/
  leadsTo : Int → List α → Bytes → List Bytes → Bool

namespace CertificatePath

/-- The greatest number of certificates between the first one and the authority. -/
def greatestDepth : Nat := 6

/-- Whether a certificate may stand on a path at `now`, with `below` authorities of the path
below it; the first certificate of a path is no authority. -/
def acceptsAlone (now : Int) (isFirst : Bool) (below : Nat) (c : Certificate) : Bool :=
  0 ≤ c.notBefore && c.notBefore ≤ now && now ≤ c.notAfter
    && (match c.constraints? with
      | none => false
      | some k =>
        if isFirst then !k.isAuthority
        else k.isAuthority && match k.depth with
          | some n => below ≤ n && n < 256
          | none => true)
    && c.purposes?.isSome

/-- Whether every certificate of a path, the topmost first, is signed by the key above it. -/
def isSigned (keyName keyBits : Bytes) : List Certificate → Bool
  | [] => true
  | c :: path =>
    Signature.verify keyName keyBits c.signatureName c.signed c.signature
      && isSigned c.keyName c.keyBits path

/-- Whether a path, whose topmost certificate comes first, can be continued to an anchor with
at most `room` more certificates of the stock. -/
def reaches (now : Int) (anchors : List Anchor) (stock : List Certificate) :
    Nat → List Certificate → Bool
  | _, [] => false
  | room, top :: path =>
    acceptsAlone now path.isEmpty (path.length - 1) top
      && (anchors.any (fun a =>
          a.subject = top.issuer && isSigned a.keyName a.keyBits (top :: path))
        || match room with
          | 0 => false
          | room + 1 =>
            stock.any fun c =>
              c.subject = top.issuer
                && !(top :: path).any (fun d =>
                  c.keyName = d.keyName && c.keyBits = d.keyBits && c.subject = d.subject)
                && reaches now anchors stock room (c :: top :: path))

/-- Whether the path of a certificate, with others in stock, can be continued to one of the anchors. -/
def isIssued (now : Int) (anchors : List Anchor) (first : Bytes) (rest : List Bytes) : Bool :=
  let strict := fun b => (Certificate.read? b).filter Certificate.isStrict
  match strict first with
  | none => false
  | some c => reaches now anchors (rest.filterMap strict) greatestDepth [c]

/-- The validator in use. -/
def validator : PathValidator Anchor where
  anchor? b := (Certificate.read? b).bind Anchor.ofCertificate?
  leadsTo := isIssued

end CertificatePath

end DeviceAccess
