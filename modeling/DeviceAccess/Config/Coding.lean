import DeviceAccess.Config.Settings
import DeviceAccess.Document

/-!
# Settings as documents

Every section has a reader and a writer.  A reader fills in what is left out, apart from the
parts of a record that have no standard value; a writer writes every field under its own name,
an absent value as null.  A group document may use four keys under other names, and
a statement's description is written only when there is one.
-/

namespace DeviceAccess

open Document

/-- Reads the name of a key algorithm. -/
def KeyType.read : Document → Except ShapeFault KeyType :=
  asVariant [("RSA_2048", .rsa2048), ("rsa_2048", .rsa2048),
    ("ECDSA_P256", .ecdsaP256), ("ecdsa_p256", .ecdsaP256)]

/-- Reads a certificate kind, which is written in capitals. -/
def CertificateKind.read : Document → Except ShapeFault CertificateKind :=
  asVariant [("SERVER", .server), ("CLIENT", .client)]

/-- The written form of a certificate kind. -/
def CertificateKind.write : CertificateKind → Document
  | .server => text "SERVER"
  | .client => text "CLIENT"

/-- A text, or null when there is none. -/
def writeOption : Option String → Document
  | some s => text s
  | none => null

/-- A 64-bit number. -/
def writeUInt64 (n : UInt64) : Document := int n.toNat

/-- A list of texts. -/
def writeTexts (l : List String) : Document := list (l.map text)

/-! ### Group documents -/

namespace Effect

/-- Reads an effect: in capitals, in lower case or capitalised. -/
def read : Document → Except ShapeFault Effect :=
  asVariant [("ALLOW", .allow), ("allow", .allow), ("Allow", .allow),
    ("DENY", .deny), ("deny", .deny), ("Deny", .deny)]

def write : Effect → Document
  | allow => text "ALLOW"
  | deny => text "DENY"

end Effect

/-- Reads a set of texts. -/
def readTextSet (d : Document) : Except ShapeFault (OrderedSet String) :=
  (asList asText d).map OrderedSet.ofList

/-- Reads a map with free keys. -/
def readMap {α : Type} (read : Document → Except ShapeFault α) (d : Document) :
    Except ShapeFault (OrderedMap String α) :=
  (asTable read d).map OrderedMap.ofList

/-- A map as a table. -/
def writeMap {α : Type} (write : α → Document) (m : OrderedMap String α) : Document :=
  table (m.entries.map fun e => (e.1, write e.2))

namespace Statement

def fields : List Field := [
  ⟨"statement_description", ["statementDescription"]⟩,
  .named "effect", .named "operations", .named "resources"]

def read (d : Document) : Except ShapeFault Statement := do
  let given ← d.record fields
  return {
    description := ← fieldOr given "statement_description" none (asOption asText)
    effect := ← fieldOr given "effect" .allow Effect.read
    operations := ← fieldOr given "operations" ∅ readTextSet
    resources := ← fieldOr given "resources" ∅ readTextSet }

def write (s : Statement) : Document :=
  let described := match s.description with
    | some note => [("statement_description", text note)]
    | none => []
  table (described ++ [
    ("effect", s.effect.write),
    ("operations", writeTexts s.operations.toList),
    ("resources", writeTexts s.resources.toList)])

end Statement

namespace GroupDefinition

def fields : List Field := [
  ⟨"selection_rule", ["selectionRule"]⟩, ⟨"policy_name", ["policyName"]⟩]

def read (d : Document) : Except ShapeFault GroupDefinition := do
  let given ← d.record fields
  return {
    rule := ← fieldOf given "selection_rule" asText
    policy := ← fieldOf given "policy_name" asText }

def write (g : GroupDefinition) : Document :=
  table [("selection_rule", text g.rule), ("policy_name", text g.policy)]

end GroupDefinition

namespace GroupDocument

def fields : List Field := [
  ⟨"format_version", ["formatVersion"]⟩, .named "definitions", .named "policies"]

def read (d : Document) : Except ShapeFault GroupDocument := do
  let given ← d.record fields
  return {
    formatVersion := ← fieldOr given "format_version" supportedFormat asText
    definitions := ← fieldOr given "definitions" ∅ (readMap GroupDefinition.read)
    policies := ← fieldOr given "policies" ∅ (readMap (readMap Statement.read)) }

def write (g : GroupDocument) : Document :=
  table [("format_version", text g.formatVersion),
    ("definitions", writeMap GroupDefinition.write g.definitions),
    ("policies", writeMap (writeMap Statement.write) g.policies)]

end GroupDocument

/-! ### The other sections -/

namespace SessionSettings

def fields : List Field := [.named "capacity", .named "refresh_interval_secs",
  .named "idle_sweep_interval_secs", .named "idle_timeout_secs"]

def read (d : Document) : Except ShapeFault SessionSettings := do
  let given ← d.record fields
  return {
    capacity := ← fieldOr given "capacity" standard.capacity asUInt64
    refreshIntervalSecs :=
      ← fieldOr given "refresh_interval_secs" standard.refreshIntervalSecs asUInt64
    idleSweepIntervalSecs :=
      ← fieldOr given "idle_sweep_interval_secs" standard.idleSweepIntervalSecs asUInt64
    idleTimeoutSecs := ← fieldOr given "idle_timeout_secs" standard.idleTimeoutSecs asUInt64 }

def write (s : SessionSettings) : Document :=
  table [("capacity", writeUInt64 s.capacity),
    ("refresh_interval_secs", writeUInt64 s.refreshIntervalSecs),
    ("idle_sweep_interval_secs", writeUInt64 s.idleSweepIntervalSecs),
    ("idle_timeout_secs", writeUInt64 s.idleTimeoutSecs)]

end SessionSettings

namespace AuthoritySettings

def fields : List Field := [.named "ca_type", .named "private_key_uri", .named "certificate_uri"]

def read (d : Document) : Except ShapeFault AuthoritySettings := do
  let given ← d.record fields
  return {
    keyType := ← fieldOr given "ca_type" .rsa2048 KeyType.read
    privateKeyUri := ← fieldOr given "private_key_uri" none (asOption asText)
    certificateUri := ← fieldOr given "certificate_uri" none (asOption asText) }

def write (s : AuthoritySettings) : Document :=
  table [("ca_type", text s.keyType.name), ("private_key_uri", writeOption s.privateKeyUri),
    ("certificate_uri", writeOption s.certificateUri)]

end AuthoritySettings

namespace LeafSettings

def fields : List Field := [.named "server_certificate_validity_secs",
  .named "client_certificate_validity_secs", .named "disable_certificate_rotation",
  .named "leaf_key_type"]

def read (d : Document) : Except ShapeFault LeafSettings := do
  let given ← d.record fields
  return {
    serverValiditySecs := ← fieldOr given "server_certificate_validity_secs"
      standard.serverValiditySecs asUInt64
    clientValiditySecs := ← fieldOr given "client_certificate_validity_secs"
      standard.clientValiditySecs asUInt64
    rotationDisabled := ← fieldOr given "disable_certificate_rotation" false asBool
    keyType := ← fieldOr given "leaf_key_type" .ecdsaP256 KeyType.read }

def write (s : LeafSettings) : Document :=
  table [("server_certificate_validity_secs", writeUInt64 s.serverValiditySecs),
    ("client_certificate_validity_secs", writeUInt64 s.clientValiditySecs),
    ("disable_certificate_rotation", bool s.rotationDisabled),
    ("leaf_key_type", text s.keyType.name)]

end LeafSettings

namespace ConnectivitySettings

def fields : List Field := [.named "host_addresses"]

def read (d : Document) : Except ShapeFault ConnectivitySettings := do
  let given ← d.record fields
  return { hostAddresses := ← fieldOr given "host_addresses" [] (asList asText) }

def write (s : ConnectivitySettings) : Document :=
  table [("host_addresses", writeTexts s.hostAddresses)]

end ConnectivitySettings

/-- Reads a path. -/
def Path.read (d : Document) : Except ShapeFault Path := (asText d).map Path.mk

/-- A path as it was written. -/
def Path.write (p : Path) : Document := Document.text p.text

namespace RegisteredCertificate

def fields : List Field := [.named "certificate_id", .named "certificate_file", .named "things"]

def read (d : Document) : Except ShapeFault RegisteredCertificate := do
  let given ← d.record fields
  return {
    id := ← fieldOf given "certificate_id" asText
    file := ← fieldOf given "certificate_file" Path.read
    things := ← fieldOr given "things" [] (asList asText) }

def write (r : RegisteredCertificate) : Document :=
  table [("certificate_id", text r.id), ("certificate_file", r.file.write),
    ("things", writeTexts r.things)]

end RegisteredCertificate

namespace RegistrySettings

def fields : List Field := [.named "certificates"]

def read (d : Document) : Except ShapeFault RegistrySettings := do
  let given ← d.record fields
  return { certificates := ← fieldOr given "certificates" [] (asList RegisteredCertificate.read) }

def write (s : RegistrySettings) : Document :=
  table [("certificates", list (s.certificates.map RegisteredCertificate.write))]

end RegistrySettings

namespace CertificateOutput

def fields : List Field := [.named "service_name", .named "certificate_type", .named "directory"]

def read (d : Document) : Except ShapeFault CertificateOutput := do
  let given ← d.record fields
  return {
    service := ← fieldOf given "service_name" asText
    kind := ← fieldOf given "certificate_type" CertificateKind.read
    directory := ← fieldOf given "directory" Path.read }

def write (o : CertificateOutput) : Document :=
  table [("service_name", text o.service), ("certificate_type", o.kind.write),
    ("directory", o.directory.write)]

end CertificateOutput

namespace Settings

def fields : List Field := [.named "env_files", .named "work_dir", .named "thing_name",
  .named "session", .named "certificate_authority", .named "certificates",
  .named "device_groups", .named "connectivity", .named "registry",
  .named "certificate_outputs"]

/-- Reads all settings. -/
def read (d : Document) : Except ShapeFault Settings := do
  let given ← d.record fields
  return {
    envFiles := ← fieldOr given "env_files" [] (asList asText)
    workDir := ← fieldOr given "work_dir" standard.workDir Path.read
    thingName := ← fieldOr given "thing_name" none (asOption asText)
    session := ← fieldOr given "session" .standard SessionSettings.read
    authority := ← fieldOr given "certificate_authority" .standard AuthoritySettings.read
    certificates := ← fieldOr given "certificates" .standard LeafSettings.read
    groups := ← fieldOr given "device_groups" .empty GroupDocument.read
    connectivity := ← fieldOr given "connectivity" ⟨[]⟩ ConnectivitySettings.read
    registry := ← fieldOr given "registry" ⟨[]⟩ RegistrySettings.read
    outputs := ← fieldOr given "certificate_outputs" [] (asList CertificateOutput.read) }

/-- Writes all settings. -/
def write (s : Settings) : Document :=
  table [("env_files", writeTexts s.envFiles), ("work_dir", s.workDir.write),
    ("thing_name", writeOption s.thingName), ("session", s.session.write),
    ("certificate_authority", s.authority.write), ("certificates", s.certificates.write),
    ("device_groups", s.groups.write), ("connectivity", s.connectivity.write),
    ("registry", s.registry.write),
    ("certificate_outputs", list (s.outputs.map CertificateOutput.write))]

end Settings

end DeviceAccess
