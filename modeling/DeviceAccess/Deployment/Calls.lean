import DeviceAccess.Deployment.Basic

/-!
# Calls that are repeated

Two calls of the gateway are repeated while somebody waits for them: asking for the material of an
imported authority, and registering the authority in force for a core device.  Background tasks go on
during the waits between calls.
-/

namespace DeviceAccess

namespace Deployment

variable (tk : Toolkit)

/-! ### Repeating -/

/-- A call: it may change the deployment and the failures that are staged for it. -/
abbrev Call (α : Type) := Deployment → StagedFaults → Deployment × StagedFaults × Except Fault α

/-- Makes a call and repeats it, up to `limit` times, as a policy says.  A stop that is signalled at
a time before the next call ends the waiting. -/
def repeatCall {α : Type} (policy : RetryPolicy) (worthRepeating : Fault → Bool) (stop : Option Nat)
    (call : Call α) : Nat → Nat → StagedFaults → Deployment → Deployment × Except Fault α
  | limit, calls, faults, d =>
    let (d, faults, r) := call d faults
    match limit, policy.next worthRepeating (calls + 1) r with
    | limit + 1, some delay =>
      match stop.filter fun time => time < d.clock + delay.millis with
      | some time => (d.wait tk (time - d.clock), .error .shutdown)
      | none =>
        repeatCall policy worthRepeating stop call limit (calls + 1) faults (d.wait tk delay.millis)
    | _, _ => (d, r)

/-! ### Importing an authority -/

/-- When a failed import is repeated: three calls, with waits of two and four seconds. -/
def importPolicy : RetryPolicy := .bounded 3 (.ofMillis 2000)

/-- Whether an import is worth repeating: the provider cannot be reached at present. -/
def isUnavailable : Fault → Bool
  | .serviceUnavailable _ => true
  | _ => false

/-- The call for the material of an authority. -/
def materialCall (uris : AuthorityUris) : Call KeyMaterial := fun d faults =>
  match faults.next with
  | (some e, faults) => (d, faults, .error e)
  | (none, faults) => (d, faults, KeyMaterial.load d.gateway.world.disk uris)

/-- Imports an authority. -/
def importAuthority (d : Deployment) (faults : StagedFaults) (uris : AuthorityUris) :
    Deployment × Except Fault Unit :=
  match repeatCall tk importPolicy isUnavailable none (materialCall uris) 3 0 faults d with
  | (d, .error e) => (d, .error e)
  | (d, .ok material) => d.adopt (d.gateway.importAuthority tk d.calendar material)

/-- Puts the authority of settings in force: imports it, or generates one. -/
def configureAuthority (d : Deployment) (faults : StagedFaults) (settings : AuthoritySettings) :
    Deployment × Except Fault Unit :=
  match settings.uris with
  | .error e => (d, .error e)
  | .ok (some uris) => d.importAuthority tk faults uris
  | .ok none => d.adopt (d.gateway.generateAuthority tk d.calendar settings.keyType)

/-! ### Registering the authority -/

/-- The report of a failed upload. -/
def uploadFault : Fault → Fault
  | .cloud kind reason =>
    .cloud kind ("Failed to put core CA certificates to cloud: " ++ reason)
  | e => e

/-- The call that registers a certificate for a core device. -/
def uploadCall (thing certificate : String) : Call Unit := fun d faults =>
  d.callRegistrar faults thing certificate

/-- Registers the signing certificate in force for a core device, until a stop is signalled `stop`
milliseconds from now. -/
def uploadAuthority (d : Deployment) (faults : StagedFaults) (thing : String) (stop : Option Nat) :
    Deployment × Except Fault Unit :=
  match d.gateway.authority.inForce with
  | .error e => (d, .error e)
  | .ok authority =>
    let limit := faults.length + stop.getD 0 / uploadPolicy.initialDelay.millis + 1
    let (d, r) := repeatCall tk uploadPolicy Fault.isTransient (stop.map (d.clock + ·))
      (uploadCall thing authority.signing) limit 0 faults d
    (d, r.mapError uploadFault)

end Deployment

end DeviceAccess
