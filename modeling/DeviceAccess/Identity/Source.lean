import DeviceAccess.Identity.Thing

/-!
# The identity source

The cloud knows which device certificates are active and which things are attached to them.  It is
asked through `IdentitySource`, whose answers may also be faults: a failed question is not a
negative answer.  A sweep over the sessions takes its time, so its answers may change on the way
(`SweepSource`).  What was asked is reported as a list of questions.
-/

namespace DeviceAccess

/-- The answers of the identity source at one time. -/
structure IdentitySource where
  /-- The id of a certificate text, if that certificate is active. -/
  activeId : String → Except Fault (Option String)
  /-- Whether a thing is attached to the certificate of an id. -/
  isAttached : Thing → String → Except Fault Bool

/-- The answers of the identity source during one sweep over the sessions. -/
structure SweepSource where
  /-- The id of a certificate text, if that certificate is active. -/
  activeId : String → Except Fault (Option String)
  /-- Whether a thing is attached to the certificate of an id; the first argument is the id of the
  session that is checked. -/
  isAttached : String → Thing → String → Except Fault Bool

/-- Answers that stay the same during a sweep. -/
def IdentitySource.steady (source : IdentitySource) : SweepSource :=
  ⟨source.activeId, fun _ => source.isAttached⟩

/-- A question to the identity source. -/
inductive Question where
  | certificate (text : String)
  | attachment (thing : Thing) (certificateId : String)
  deriving DecidableEq

end DeviceAccess
