import DeviceAccess.Certificate.Inspection
import DeviceAccess.Identity.Source
import DeviceAccess.Ordered

/-!
# The offline registry

A stand-in for the cloud from records that are known on the spot: active certificates by the hash
of their text, things by the ids of the certificates they are attached to, and the authorities that
were registered for core devices.  It can be taken offline as a whole, and failures can be staged
for single questions; a staged failure comes before the registry, so it is not counted as a
question.
-/

namespace DeviceAccess

/-- Calls that are going to fail: each fault once, or for good. -/
abbrev StagedFaults := List (Fault × Bool)

/-- The fault of the next call, if it is to fail, and what is staged after it. -/
def StagedFaults.next (l : StagedFaults) : Option Fault × StagedFaults :=
  match l with
  | [] => (none, [])
  | (e, true) :: _ => (some e, l)
  | (e, false) :: rest => (some e, rest)

/-- The records of the registry. -/
structure IdentityRegistry where
  /-- Ids of active certificates, by hash. -/
  active : OrderedMap String String
  /-- Ids of the certificates that things are attached to. -/
  attachments : OrderedMap String (OrderedSet String)
  /-- The authorities registered for core devices. -/
  authorities : OrderedMap String (List String)
  offline : Bool
  certificateFaults : OrderedMap String Fault
  thingFaults : OrderedMap String Fault
  certificateQuestions : Nat
  thingQuestions : Nat

namespace IdentityRegistry

/-- A registry without records. -/
def empty : IdentityRegistry := ⟨∅, ∅, ∅, false, ∅, ∅, 0, 0⟩

/-! ### Records -/

/-- Records a certificate as active. -/
def register (r : IdentityRegistry) (text id : String) : IdentityRegistry :=
  { r with active := r.active.insert (certificateHash text) id }

/-- Forgets a certificate. -/
def deactivate (r : IdentityRegistry) (text : String) : IdentityRegistry :=
  { r with active := r.active.erase (certificateHash text) }

/-- The ids that a thing is attached to. -/
def idsOf (r : IdentityRegistry) (thing : String) : OrderedSet String :=
  (r.attachments.get? thing).getD ∅

/-- Attaches a thing to the certificate of an id. -/
def attach (r : IdentityRegistry) (thing id : String) : IdentityRegistry :=
  { r with attachments := r.attachments.insert thing ((r.idsOf thing).insert id) }

/-- Detaches a thing. -/
def detach (r : IdentityRegistry) (thing id : String) : IdentityRegistry :=
  { r with attachments := r.attachments.insert thing ((r.idsOf thing).erase id) }

/-! ### Answers -/

/-- The fault of all calls while the registry is offline. -/
def offlineFault : Fault := .cloud .unavailable "identity registry is offline"

/-- An answer, unless the registry is offline. -/
def online {α : Type} (r : IdentityRegistry) (answer : α) : Except Fault α :=
  if r.offline then .error offlineFault else .ok answer

/-- The registry's answers as things are. -/
def source (r : IdentityRegistry) : IdentitySource where
  activeId := fun text =>
    match r.certificateFaults.get? text with
    | some e => .error e
    | none => r.online (r.active.get? (certificateHash text))
  isAttached := fun thing id =>
    match r.thingFaults.get? thing.name with
    | some e => .error e
    | none => r.online ((r.idsOf thing.name).contains id)

/-- Counts a question, unless its failure is staged. -/
def count (r : IdentityRegistry) : Question → IdentityRegistry
  | .certificate text =>
    if r.certificateFaults.contains text then r
    else { r with certificateQuestions := r.certificateQuestions + 1 }
  | .attachment thing _ =>
    if r.thingFaults.contains thing.name then r
    else { r with thingQuestions := r.thingQuestions + 1 }

/-- Counts questions. -/
def countAll (r : IdentityRegistry) (asked : List Question) : IdentityRegistry :=
  asked.foldl count r

/-- Registers the authorities of a core device. -/
def registerAuthorities (r : IdentityRegistry) (thing : String) (texts : List String) :
    IdentityRegistry × Except Fault Unit :=
  match r.online () with
  | .ok () => ({ r with authorities := r.authorities.insert thing texts }, .ok ())
  | .error e => (r, .error e)

end IdentityRegistry

end DeviceAccess
