import DeviceAccess.Authority.Store
import DeviceAccess.Config.Settings
import DeviceAccess.Leaf.Bundle
import DeviceAccess.Reachability

/-!
# Subscriptions

A subscription keeps one service supplied with certificates of one kind.  It has a key of its own,
which stays the same, and remembers when its last certificate ends.

`Subscription.issue` is the one way to a certificate.  An issuance that fails hands nothing over and
leaves the subscription as it was.  If rotation is disabled, a subscription that has a certificate
keeps it, which is no failure.  `Subscription.renewalReason` says whether the last certificate is due
for renewal.
-/

namespace DeviceAccess

/-- A standing order for certificates. -/
structure Subscription where
  service : String
  kind : CertificateKind
  key : PrivateKey
  recipient : Recipient
  /-- The end of the last certificate, in seconds since the start of 1970. -/
  expiry : Option Nat
  deriving DecidableEq

/-- The outcome of an issuance. -/
structure Issuance where
  subscription : Subscription
  world : World
  /-- What was handed over. -/
  delivered : Option Bundle
  result : Except Fault Unit

/-- Why a certificate is due for renewal. -/
inductive RenewalReason where
  | expired (expiry : Nat)
  | endsSoon (expiry secondsLeft : Nat)
  deriving DecidableEq, Repr

/-- The report of a reason. -/
def RenewalReason.message : RenewalReason → String
  | expired expiry => "certificate expired at " ++ (Calendar.Moment.ofSeconds expiry).shown
  | endsSoon expiry secondsLeft =>
    "certificate is approaching expiration at " ++ (Calendar.Moment.ofSeconds expiry).shown
      ++ " with " ++ toString secondsLeft ++ " seconds remaining"

namespace Subscription

/-- A new subscription, whose first certificate is yet to come. -/
def new (service : String) (kind : CertificateKind) (key : PrivateKey) (recipient : Recipient) :
    Subscription :=
  ⟨service, kind, key, recipient, none⟩

/-- The names that certificates are issued for: a server's are the gateway's addresses and
`localhost`, each once; a client has none. -/
def namesFor (kind : CertificateKind) (addresses : List HostAddress) : List String :=
  match kind with
  | .server => ((addresses ++ ["localhost"]).filter fun a => a ≠ "").eraseDups
  | .client => []

/-- The next certificate of a subscription. -/
def request (s : Subscription) (settings : LeafSettings) (addresses : List HostAddress) :
    Issue.Request where
  commonName := s.service
  kind := s.kind
  names := namesFor s.kind addresses
  validity := (settings.validity s.kind).toNat

/-- Issues a certificate and hands it over. -/
def issue (tk : Toolkit) (now : Int) (authority : AuthorityStore) (settings : LeafSettings)
    (s : Subscription) (w : World) (addresses : List HostAddress) : Issuance :=
  if settings.rotationDisabled && s.expiry.isSome then ⟨s, w, none, .ok ()⟩
  else
    match authority.inForce with
    | .error e => ⟨s, w, none, .error (.certificateGeneration e.message)⟩
    | .ok ca =>
      match w.draw (tk.issue (s.request settings addresses) s.key ca.signing ca.key now) with
      | (w, .error e) => ⟨s, w, none, .error e⟩
      | (w, .ok certificate) =>
        match tk.expiry certificate with
        | .error e => ⟨s, w, none, .error e⟩
        | .ok expiry =>
          let bundle : Bundle := ⟨certificate, ca.chain, s.key.toPem⟩
          ⟨{ s with expiry := some expiry }, { w with disk := s.recipient.receive bundle w.disk },
            some bundle, .ok ()⟩

/-! ### Renewal -/

/-- How long before its end a certificate is renewed: a day, in milliseconds. -/
def renewalWindow : Int := 24 * 60 * 60 * 1000

/-- Why the last certificate is due for renewal at a time, given in milliseconds since the start of
1970; none if it is not due or there is none. -/
def renewalReason (s : Subscription) (millis : Int) : Option RenewalReason :=
  match s.expiry with
  | none => none
  | some expiry =>
    let left := (expiry : Int) * 1000 - millis
    if left ≤ 0 then some (.expired expiry)
    else if left ≤ renewalWindow then some (.endsSoon expiry (left.toNat / 1000))
    else none

/-- Whether the last certificate is due for renewal. -/
def isDue (s : Subscription) (millis : Int) : Bool := (s.renewalReason millis).isSome

end Subscription

end DeviceAccess
