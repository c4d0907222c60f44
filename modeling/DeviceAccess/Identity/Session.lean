import DeviceAccess.Identity.Thing

/-!
# Sessions

A session is what the gateway knows about an authenticated client.  Its basis, a device
certificate or one of the gateway's own components, is fixed when it is opened.  Its thing is
resolved later and at most once: the first answer, also a negative one, stays, and a failed
attempt leaves the session as it was (`Session.attach`).
-/

namespace DeviceAccess

/-- A device certificate that the cloud reported active, by the hash of its text and the id
the cloud gave it. -/
structure DeviceCertificate where
  hash : String
  id : String
  active : Bool
  deriving DecidableEq

/-- What authenticated a session. -/
inductive Basis where
  | certificate (certificate : DeviceCertificate)
  | component
  deriving DecidableEq

/-- What is known about a session's thing. -/
inductive ThingFacet where
  | unresolved
  | resolved (thing : Option Thing)
  deriving DecidableEq

/-- An authenticated client. -/
structure Session where
  basis : Basis
  facet : ThingFacet
  deriving DecidableEq

namespace Session

/-- A new session of a device certificate. -/
def ofCertificate (certificate : DeviceCertificate) : Session :=
  ⟨.certificate certificate, .unresolved⟩

/-- A new session of one of the gateway's components. -/
def ofComponent : Session := ⟨.component, .unresolved⟩

/-- The session with its thing known from the start. -/
def withThing (s : Session) (thing : Thing) : Session :=
  { s with facet := .resolved (some thing) }

/-- The certificate that authenticated the session. -/
def certificate? (s : Session) : Option DeviceCertificate :=
  match s.basis with
  | .certificate c => some c
  | .component => none

/-- Whether the session belongs to one of the gateway's components. -/
def isComponent (s : Session) : Bool :=
  match s.basis with
  | .certificate _ => false
  | .component => true

/-- The session's thing, when it has one. -/
def thing? (s : Session) : Option Thing :=
  match s.facet with
  | .unresolved => none
  | .resolved thing => thing

/-- The name of the session's thing. -/
def thingName? (s : Session) : Option String := s.thing?.map (·.name)

/-- Whether the thing has been asked for and answered, either way. -/
def isResolved (s : Session) : Bool :=
  match s.facet with
  | .unresolved => false
  | .resolved _ => true

/-- An identity attribute, by the facet it belongs to and its name. -/
def identityAttribute (s : Session) (facet name : String) : Option String :=
  if facet = "Thing" ∧ name = "ThingName" then s.thingName?
  else if facet = "Certificate" ∧ name = "CertificateId" then s.certificate?.map (·.id)
  else none

/-- The outcome of an attempt to attach a thing. -/
structure Attachment where
  /-- The session afterwards. -/
  session : Session
  /-- Whether the answer had to be asked for. -/
  asked : Bool
  /-- The thing the session has afterwards, or why it is still unknown. -/
  result : Except Fault (Option Thing)

/-- Attaches the thing that `answer` names, unless the session's thing is already resolved. -/
def attach (s : Session) (answer : Except Fault (Option Thing)) : Attachment :=
  match s.facet with
  | .resolved thing => ⟨s, false, .ok thing⟩
  | .unresolved =>
    match answer with
    | .ok thing => ⟨{ s with facet := .resolved thing }, true, .ok thing⟩
    | .error e => ⟨s, true, .error e⟩

/-- A resolved thing is never asked for again and never changes. -/
theorem attach_of_isResolved {s : Session} (h : s.isResolved = true)
    (answer : Except Fault (Option Thing)) :
    s.attach answer = ⟨s, false, .ok s.thing?⟩ := by
  unfold attach thing?
  cases hf : s.facet with
  | unresolved => simp [isResolved, hf] at h
  | resolved t => rfl

end Session

end DeviceAccess
