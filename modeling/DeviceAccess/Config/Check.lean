import DeviceAccess.Config.Settings
import DeviceAccess.Net.Url

/-!
# Checking settings

Settings are checked before they are put in force: the groups have to compile, the two URIs of
an imported authority have to be given together and to be of a known scheme, and an output
needs the name of a service.
-/

namespace DeviceAccess

/-- Where the parts of an imported authority are. -/
structure AuthorityUris where
  privateKey : Url
  certificate : Url
  deriving DecidableEq

/-- The schemes that authority material may be given by. -/
def materialSchemes : List String := ["file", "pkcs11"]

/-- Reads the URI of a setting. -/
def readMaterialUri (setting written : String) : Except Fault Url :=
  match Url.parse written with
  | .error e => .error (.invalidConfiguration
      ("Invalid " ++ setting ++ " '" ++ written ++ "': " ++ e.message))
  | .ok url =>
    if materialSchemes.contains url.scheme then .ok url
    else .error (.invalidConfiguration
      ("Unsupported " ++ setting ++ " scheme '" ++ url.scheme
        ++ "', expected one of [\"file\", \"pkcs11\"]"))

/-- The URIs of an imported authority; none for a generated one. -/
def AuthoritySettings.uris (s : AuthoritySettings) : Except Fault (Option AuthorityUris) :=
  match s.privateKeyUri, s.certificateUri with
  | none, none => .ok none
  | some key, some certificate => do
    let privateKey ← readMaterialUri "private_key_uri" key
    let certificate ← readMaterialUri "certificate_uri" certificate
    return some ⟨privateKey, certificate⟩
  | _, _ => .error (.invalidConfiguration
      "Both private_key_uri and certificate_uri must be set for a custom CA")

/-- Checks settings as a whole; the first section at fault is reported. -/
def Settings.validate (s : Settings) : Except Fault Unit := do
  match Groups.ofDocument s.groups with
  | .error e => throw e.fault
  | .ok _ => pure ()
  let _ ← s.authority.uris
  if s.outputs.any fun o => o.service = "" then
    throw (.invalidConfiguration "certificate_outputs entries need a service_name")

end DeviceAccess
