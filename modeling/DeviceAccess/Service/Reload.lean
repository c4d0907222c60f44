import DeviceAccess.Service.Basic

/-!
# New settings for a running service

`Service.reload` checks new settings, finds out what they change and puts the changed sections in
force, one after the other up to the first fault.  Settings that are read at the start only keep the
values they had.  The new settings become the ones in force when all sections are; after a fault the
old ones stay, against which the next reload is compared.
-/

namespace DeviceAccess

namespace Service

variable (tk : Toolkit)

/-- Puts the groups in force. -/
def applyGroups (s : Service) (document : GroupDocument) : Service × Except Fault Unit :=
  s.adoptGateway (s.deployment.gateway.applyGroups document)

/-- Puts the changed sections in force that cannot fail and do not depend on the authority. -/
def applySweeps (s : Service) (patch : Patch) (new : Settings) : Service :=
  let s := if patch.session then (s.setCapacity new.session).restartSweeps new.session else s
  if patch.certificates then s.configureLeaves new.certificates else s

/-- Puts a changed authority in force and registers it. -/
def applyAuthority (s : Service) (patch : Patch) (new : Settings) :
    Service × Except Fault Unit :=
  if patch.authority then
    match s.adopt (s.deployment.configureAuthority tk [] new.authority) with
    | (s, .error e) => (s, .error e)
    | (s, .ok ()) => (s.startUpload new.thingName, .ok ())
  else (s, .ok ())

/-- Puts changed addresses and outputs in force. -/
def applyOutputs (s : Service) (patch : Patch) (new : Settings) : Service × Except Fault Unit :=
  let s := if patch.connectivity then s.recordAddresses tk new.connectivity else s
  let s := patch.removed.foldl unsubscribeOutput s
  s.subscribeOutputs tk patch.added

/-- Puts the changed sections in force. -/
def applyPatch (s : Service) (patch : Patch) (new : Settings) : Service × Except Fault Unit :=
  match (if patch.groups then s.applyGroups new.groups else (s, .ok ())) with
  | (s, .error e) => (s, .error e)
  | (s, .ok ()) =>
    match (s.applySweeps patch new).applyAuthority tk patch new with
    | (s, .error e) => (s, .error e)
    | (s, .ok ()) => s.applyOutputs tk patch new

/-- New settings with the values of the old ones where only a start could change them. -/
def keepStartSettings (old new : Settings) : Settings :=
  { new with
    envFiles := old.envFiles
    workDir := old.workDir
    thingName := old.thingName
    registry := old.registry }

/-- Puts new settings in force; the answer is what they change. -/
def reload (s : Service) (new : Settings) : Service × Except Fault Patch :=
  match new.validate with
  | .error e => (s, .error e)
  | .ok () =>
    let patch := Patch.between s.settings new
    if patch.isEmpty then (s, .ok patch)
    else
      let applied := keepStartSettings s.settings new
      match s.applyPatch tk patch applied with
      | (s, .error e) => (s, .error e)
      | (s, .ok ()) => ({ s with settings := applied }, .ok patch)

end Service

end DeviceAccess
