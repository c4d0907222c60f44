import DeviceAccess.Config.Settings

/-!
# What changed between two settings

A patch tells which sections differ, which outputs are new and which are gone, and which
settings differ that are read at the start only.  Outputs are compared as sets, all else as it
is.  `Patch.between` computes it and `Patch.isEmpty` says that nothing differs.
-/

namespace DeviceAccess

/-- A setting that is read at the start only. -/
inductive StartSetting where
  | workDir
  | thingName
  | registry
  | envFiles
  deriving DecidableEq, Repr

/-- The name of a setting in reports. -/
def StartSetting.name : StartSetting → String
  | workDir => "work_dir"
  | thingName => "thing_name"
  | registry => "registry"
  | envFiles => "env_files"

/-- The difference between two settings. -/
structure Patch where
  groups : Bool
  session : Bool
  certificates : Bool
  authority : Bool
  connectivity : Bool
  added : List CertificateOutput
  removed : List CertificateOutput
  /-- Differences that take effect at the next start. -/
  restart : List StartSetting
  deriving DecidableEq

namespace Patch

/-- Whether an output is among others. -/
def listed (outputs : List CertificateOutput) (o : CertificateOutput) : Bool :=
  outputs.any o.same

/-- The difference that leads from `old` to `new`. -/
def between (old new : Settings) : Patch where
  groups := old.groups ≠ new.groups
  session := old.session ≠ new.session
  certificates := old.certificates ≠ new.certificates
  authority := old.authority ≠ new.authority
  connectivity := old.connectivity ≠ new.connectivity
  added := new.outputs.filter fun o => !listed old.outputs o
  removed := old.outputs.filter fun o => !listed new.outputs o
  restart := [
    (!old.workDir.same new.workDir, StartSetting.workDir),
    (decide (old.thingName ≠ new.thingName), StartSetting.thingName),
    (!old.registry.same new.registry, StartSetting.registry),
    (decide (old.envFiles ≠ new.envFiles), StartSetting.envFiles)].filterMap fun e =>
      if e.1 then some e.2 else none

/-- Whether nothing differs. -/
def isEmpty (p : Patch) : Bool :=
  !p.groups && !p.session && !p.certificates && !p.authority && !p.connectivity
    && p.added.isEmpty && p.removed.isEmpty && p.restart.isEmpty

/-- Outputs in reports. -/
def shownOutputs (outputs : List CertificateOutput) : String :=
  ", ".intercalate (outputs.map (·.shown))

/-- The patch in one line. -/
def summary (p : Patch) : String :=
  let sections := [(p.groups, "groups"), (p.session, "session"),
    (p.certificates, "certificates"), (p.authority, "certificate_authority"),
    (p.connectivity, "connectivity")].filterMap fun e => if e.1 then some e.2 else none
  let lists := [
    (p.added.isEmpty, "added outputs: [" ++ shownOutputs p.added ++ "]"),
    (p.removed.isEmpty, "removed outputs: [" ++ shownOutputs p.removed ++ "]"),
    (p.restart.isEmpty,
      "restart required for: [" ++ ", ".intercalate (p.restart.map (·.name)) ++ "]")].filterMap
        fun e => if e.1 then none else some e.2
  match sections ++ lists with
  | [] => "no changes"
  | parts => "; ".intercalate parts

end Patch

end DeviceAccess
