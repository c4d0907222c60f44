import DeviceAccess.Gateway.Basic
import DeviceAccess.Sessions.Identifier

/-!
# Access of devices

What devices ask of the gateway: a session for a certificate, a thing for the session, and whether a
request is allowed.

A certificate of the gateway's own authority belongs to one of its components and gets the id
`Gateway.componentId`; no session is kept for it and everything is allowed.  Every other certificate
has to be active.  A session's thing is asked for at most once, and without a thing no group selects
the session.  Operations that may ask the identity source report what they asked.

Times are milliseconds of the gateway's own clock, except for the time that certificates are judged
at.
-/

namespace DeviceAccess

namespace Gateway

/-- The outcome of an operation that may ask the identity source. -/
structure Answer (α : Type) where
  gateway : Gateway
  asked : List Question
  result : Except Fault α

/-- The session id of the gateway's own components. -/
def componentId : String := "ALLOW_ALL"

/-- Keeps a session under a free id. -/
def keepSession (g : Gateway) (clock : Nat) (session : Session) : Gateway × String :=
  let (world, number) := g.world.draw SessionId.draw
  let id := SessionId.firstFree g.sessions.cache.contains number g.sessions.size
  let (sessions, _) := g.sessions.add id session clock
  ({ g with world, sessions }, id)

/-- Opens a session for a certificate.  The text of an active certificate is stored for later
checks; that it cannot be stored is no failure. -/
def openSession (tk : Toolkit) (now : Int) (clock : Nat) (source : IdentitySource) (g : Gateway)
    (text : String) : Answer String :=
  if g.authority.isOwn tk now text then ⟨g, [], .ok componentId⟩
  else
    match source.activeId text with
    | .error _ =>
      ⟨g, [.certificate text], .error (.authentication "Failed to verify certificate with cloud")⟩
    | .ok none => ⟨g, [.certificate text], .error (.authentication "Certificate isn't active")⟩
    | .ok (some id) =>
      let hash := certificateHash text
      let (g, _) := g.onDisk (DeviceFiles.store g.authority.workDir hash text)
      let (g, sessionId) := g.keepSession clock (.ofCertificate ⟨hash, id, true⟩)
      ⟨g, [.certificate text], .ok sessionId⟩

/-- The thing of a session, as the identity source answers. -/
def thingAnswer (source : IdentitySource) (thing : Thing) (certificateId : String) :
    Except Fault (Option Thing) :=
  match source.isAttached thing certificateId with
  | .ok true => .ok (some thing)
  | .ok false => .ok none
  | .error _ => .error (.authentication "Failed to verify thing identity with cloud")

/-- Attaches a thing to a session, unless its thing is resolved already. -/
def attachThing (clock : Nat) (source : IdentitySource) (g : Gateway) (id name : String) :
    Answer Unit :=
  if id = componentId then ⟨g, [], .ok ()⟩
  else
    match g.sessions.find id clock with
    | (sessions, none) =>
      ⟨{ g with sessions }, [], .error (.authentication ("Invalid session ID (" ++ id ++ ")"))⟩
    | (sessions, some session) =>
      let g := { g with sessions }
      match session.certificate? with
      | none => ⟨g, [], .ok ()⟩
      | some certificate =>
        match Thing.ofName name with
        | .error e => ⟨g, [], .error e⟩
        | .ok thing =>
          let a := session.attach (thingAnswer source thing certificate.id)
          ⟨{ g with sessions := g.sessions.update id fun _ => a.session },
            if a.asked then [.attachment thing certificate.id] else [],
            a.result.map fun _ => ()⟩

/-- Whether a session may do what a request asks. -/
def mayPerform (clock : Nat) (g : Gateway) (id operation resource : String) :
    Gateway × Except Fault Bool :=
  if id = componentId then (g, .ok true)
  else
    match g.sessions.find id clock with
    | (sessions, none) =>
      ({ g with sessions }, .error (.authorization ("Invalid session ID (" ++ id ++ ")")))
    | (sessions, some session) =>
      ({ g with sessions }, .ok (g.groups.allows session operation resource))

/-- Closes a session. -/
def closeSession (g : Gateway) (id : String) : Gateway × Except Fault Unit :=
  if id = componentId then (g, .ok ())
  else
    match g.sessions.close id with
    | (sessions, .error (.sessionNotFound reason)) =>
      ({ g with sessions }, .error (.authorization reason))
    | (sessions, r) => ({ g with sessions }, r)

/-! ### Sweeps -/

/-- Asks the identity source about all sessions again. -/
def sweep (source : SweepSource) (g : Gateway) : Gateway × List Question :=
  let (sessions, asked) := g.sessions.refresh
    (fun hash => DeviceFiles.load g.authority.workDir hash g.world.disk) certificateHash source
  ({ g with sessions }, asked)

/-- Asks the identity source about all sessions again, while its answers stay the same. -/
def refresh (source : IdentitySource) (g : Gateway) : Gateway × List Question :=
  g.sweep source.steady

/-- Closes the sessions that were not used for longer than `timeout`. -/
def closeIdle (clock timeout : Nat) (g : Gateway) : Gateway × Nat :=
  let (sessions, n) := g.sessions.closeIdle clock timeout
  ({ g with sessions }, n)

/-- Puts the groups of a document in force, if they can be used. -/
def applyGroups (g : Gateway) (document : GroupDocument) : Gateway × Except Fault Unit :=
  let (groups, r) := g.groups.apply document
  ({ g with groups }, r)

end Gateway

end DeviceAccess
