import DeviceAccess.Disk.Path
import DeviceAccess.Leaf.Key
import DeviceAccess.Policy.Groups

/-!
# Settings

The settings of the gateway, section by section, with the values they have when nothing is
said.  Intervals are whole seconds.
-/

namespace DeviceAccess

/-- Settings of the session cache. -/
structure SessionSettings where
  capacity : UInt64
  refreshIntervalSecs : UInt64
  idleSweepIntervalSecs : UInt64
  idleTimeoutSecs : UInt64
  deriving DecidableEq, Repr

namespace SessionSettings

/-- A thousand sessions, refreshed weekly, swept every twenty minutes, idle after an hour. -/
def standard : SessionSettings := ⟨1000, 604800, 1200, 3600⟩

/-- Seconds between two refresh sweeps; at least one. -/
def refreshInterval (s : SessionSettings) : Nat := max s.refreshIntervalSecs.toNat 1

/-- Seconds between two idle sweeps; at least one. -/
def idleSweepInterval (s : SessionSettings) : Nat := max s.idleSweepIntervalSecs.toNat 1

/-- Seconds without a visit after which a session is idle. -/
def idleTimeout (s : SessionSettings) : Nat := s.idleTimeoutSecs.toNat

end SessionSettings

/-- Where the certificate authority comes from. -/
structure AuthoritySettings where
  /-- The algorithm of a generated authority. -/
  keyType : KeyType
  privateKeyUri : Option String
  certificateUri : Option String
  deriving DecidableEq, Repr

/-- A generated RSA authority. -/
def AuthoritySettings.standard : AuthoritySettings := ⟨.rsa2048, none, none⟩

/-- Whether the authority is imported. -/
def AuthoritySettings.isImported (s : AuthoritySettings) : Bool :=
  s.privateKeyUri.isSome && s.certificateUri.isSome

/-- Settings of issued certificates. -/
structure LeafSettings where
  serverValiditySecs : UInt64
  clientValiditySecs : UInt64
  /-- Whether a subscriber that has a certificate keeps it for good. -/
  rotationDisabled : Bool
  keyType : KeyType
  deriving DecidableEq, Repr

namespace LeafSettings

/-- The shortest validity in force. -/
def shortestValidity : UInt64 := 60

/-- The longest validity in force: ten days. -/
def longestValidity : UInt64 := 864000

/-- Seven days for both kinds, with rotation and elliptic keys. -/
def standard : LeafSettings := ⟨604800, 604800, false, .ecdsaP256⟩

/-- The nearest validity within the bounds. -/
def clampValidity (secs : UInt64) : UInt64 := max shortestValidity (min secs longestValidity)

/-- The settings with both validities within the bounds. -/
def clamped (s : LeafSettings) : LeafSettings :=
  { s with
    serverValiditySecs := clampValidity s.serverValiditySecs
    clientValiditySecs := clampValidity s.clientValiditySecs }

/-- The validity of certificates of a kind. -/
def validity (s : LeafSettings) : CertificateKind → UInt64
  | .server => s.serverValiditySecs
  | .client => s.clientValiditySecs

end LeafSettings

/-- Addresses that are configured by hand. -/
structure ConnectivitySettings where
  hostAddresses : List String
  deriving DecidableEq, Repr

/-- A device certificate that the offline registry knows to be active. -/
structure RegisteredCertificate where
  id : String
  file : Path
  things : List String
  deriving DecidableEq, Repr

/-- Whether two records mean the same. -/
def RegisteredCertificate.same (a b : RegisteredCertificate) : Bool :=
  a.id = b.id && a.file.same b.file && a.things = b.things

/-- The offline registry. -/
structure RegistrySettings where
  certificates : List RegisteredCertificate
  deriving DecidableEq, Repr

/-- Whether two lists agree entry by entry. -/
def sameEntries {α : Type} (same : α → α → Bool) : List α → List α → Bool
  | [], [] => true
  | a :: as, b :: bs => same a b && sameEntries same as bs
  | _, _ => false

/-- Whether two registries mean the same. -/
def RegistrySettings.same (a b : RegistrySettings) : Bool :=
  sameEntries RegisteredCertificate.same a.certificates b.certificates

/-- A subscription whose certificates are written to a directory. -/
structure CertificateOutput where
  service : String
  kind : CertificateKind
  directory : Path
  deriving DecidableEq, Repr

namespace CertificateOutput

/-- Whether two outputs mean the same. -/
def same (a b : CertificateOutput) : Bool :=
  a.service = b.service && a.kind = b.kind && a.directory.same b.directory

/-- The subscription that an output belongs to. -/
def key (o : CertificateOutput) : SubscriptionKey := ⟨o.service, o.kind⟩

/-- An output in reports. -/
def shown (o : CertificateOutput) : String := o.service ++ "/" ++ o.kind.name

end CertificateOutput

/-- All settings of the gateway. -/
structure Settings where
  envFiles : List String
  /-- Where authority material, device certificates and bundles are kept. -/
  workDir : Path
  /-- The core device that authorities are registered for. -/
  thingName : Option String
  session : SessionSettings
  authority : AuthoritySettings
  certificates : LeafSettings
  groups : GroupDocument
  connectivity : ConnectivitySettings
  registry : RegistrySettings
  outputs : List CertificateOutput
  deriving DecidableEq

/-- The settings that are in force when nothing is configured. -/
def Settings.standard : Settings where
  envFiles := []
  workDir := ⟨"./edge-trust-work"⟩
  thingName := none
  session := .standard
  authority := .standard
  certificates := .standard
  groups := .empty
  connectivity := ⟨[]⟩
  registry := ⟨[]⟩
  outputs := []

end DeviceAccess
