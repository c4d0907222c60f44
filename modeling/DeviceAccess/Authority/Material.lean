import DeviceAccess.Certificate.Inspection
import DeviceAccess.Config.Check
import DeviceAccess.Disk.Basic

/-!
# Material of an imported authority

The private key and the certificate chain of an authority that is managed elsewhere, read from the
two files that its URIs name.
-/

namespace DeviceAccess

/-- The private key of an authority and its certificates, the signing one first. -/
structure KeyMaterial where
  key : String
  chain : List String
  deriving DecidableEq

namespace KeyMaterial

/-- Reads the text that a URI names. -/
def readUri (disk : Disk) (uri : Url) : Except Fault String :=
  if uri.scheme ≠ "file" then
    .error (.invalidConfiguration
      ("Unsupported key URI scheme '" ++ uri.scheme ++ "' for file key provider"))
  else
    match uri.filePath? with
    | none => .error (.invalidConfiguration ("Invalid file URI '" ++ uri.shown ++ "'"))
    | some path =>
      match disk.readText ⟨path⟩ with
      | .ok text => .ok text
      | .error .notFound => .error (.invalidConfiguration ("File not found: " ++ path))
      | .error e => .error (.keyStore ("Reading " ++ path ++ ": " ++ e.message))

/-- Reads the material that two URIs name. -/
def load (disk : Disk) (uris : AuthorityUris) : Except Fault KeyMaterial := do
  let key ← readUri disk uris.privateKey
  let text ← readUri disk uris.certificate
  let chain ← (CertificateText.split text).mapError fun e =>
    .keyStore ("Invalid CA certificate at " ++ uris.certificate.shown ++ ": " ++ e.message)
  return ⟨key, chain⟩

end KeyMaterial

end DeviceAccess
