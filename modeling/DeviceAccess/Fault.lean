/-!
# Faults

Every operation of the gateway that can fail fails with a `Fault`: the cause, with what is
needed to report it.  `Fault.message` is the report.  A failed call to the cloud is kept
apart from a negative answer of the cloud, which is no fault; `Fault.isTransient` says
which failed calls are worth repeating.
-/

namespace DeviceAccess

/-- How a call to the cloud failed. -/
inductive CloudFault where
  | throttling
  | internalServer
  | accessDenied
  | unavailable
  | rejected
  deriving DecidableEq, Repr

/-- The name of the failure class in reports. -/
def CloudFault.name : CloudFault → String
  | throttling => "throttling"
  | internalServer => "internal-server"
  | accessDenied => "access-denied"
  | unavailable => "unavailable"
  | rejected => "rejected"

/-- Why an operation failed. -/
inductive Fault where
  /-- An identity could not be established. -/
  | authentication (reason : String)
  /-- A request does not fit the session layer. -/
  | authorization (reason : String)
  /-- No live session has the id. -/
  | sessionNotFound (id : String)
  /-- A group or policy document is malformed or inconsistent. -/
  | policy (reason : String)
  /-- A setting is unusable. -/
  | invalidConfiguration (reason : String)
  /-- A certificate could not be issued. -/
  | certificateGeneration (reason : String)
  /-- Authority material is missing or unusable. -/
  | keyStore (reason : String)
  /-- A call to the cloud failed. -/
  | cloud (kind : CloudFault) (reason : String)
  /-- A provider of key material cannot be reached at present. -/
  | serviceUnavailable (reason : String)
  /-- Configuration could not be loaded. -/
  | configuration (reason : String)
  /-- A file operation failed. -/
  | io (reason : String)
  /-- A document is not JSON. -/
  | json (reason : String)
  /-- The service is stopping. -/
  | shutdown
  | internal (reason : String)
  deriving DecidableEq, Repr

namespace Fault

/-- The report of a fault. -/
def message : Fault → String
  | authentication r => "Authentication failed: " ++ r
  | authorization r => "Authorization failed: " ++ r
  | sessionNotFound id => "Session not found: " ++ id
  | policy r => "Policy error: " ++ r
  | invalidConfiguration r => "Invalid configuration: " ++ r
  | certificateGeneration r => "Certificate generation failed: " ++ r
  | keyStore r => "Key store error: " ++ r
  | cloud kind r => "Cloud service interaction failed (" ++ kind.name ++ "): " ++ r
  | serviceUnavailable r => "Service unavailable: " ++ r
  | configuration r => "Configuration error: " ++ r
  | io r => "IO error: " ++ r
  | json r => "JSON error: " ++ r
  | shutdown => "Shutdown"
  | internal r => "Internal error: " ++ r

/-- The name of a fault's kind. -/
def kind : Fault → String
  | authentication _ => "Authentication"
  | authorization _ => "Authorization"
  | sessionNotFound _ => "SessionNotFound"
  | policy _ => "Policy"
  | invalidConfiguration _ => "InvalidConfiguration"
  | certificateGeneration _ => "CertificateGeneration"
  | keyStore _ => "KeyStore"
  | cloud _ _ => "CloudServiceInteraction"
  | serviceUnavailable _ => "ServiceUnavailable"
  | configuration _ => "Config"
  | io _ => "Io"
  | json _ => "Json"
  | shutdown => "Shutdown"
  | internal _ => "Internal"

/-- Whether the cloud may answer the same call if it is repeated. -/
def isTransient : Fault → Bool
  | cloud .throttling _ => true
  | cloud .internalServer _ => true
  | cloud .accessDenied _ => true
  | _ => false

end Fault

end DeviceAccess
