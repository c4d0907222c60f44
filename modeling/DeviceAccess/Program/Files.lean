import DeviceAccess.Program

/-!
# The files of a run

Which files a run reads and which it changes, for whoever keeps the files elsewhere.  What a run reads
depends on what it has read: the settings name environment files, whose variables may be part of the
names of further files.  So `Program.filesOf` tells what is known after the files of a disk, and asking
again after each of `Program.readingRounds` rounds of reading tells all of them.
-/

namespace DeviceAccess

namespace Program

/-- The settings come first, then the environment files, then the files that both name. -/
def readingRounds : Nat := 3

/-- The files of an imported authority. -/
def authorityFiles (s : AuthoritySettings) : List Path :=
  match s.uris with
  | .ok (some u) => [u.privateKey, u.certificate].filterMap fun u => u.filePath?.map Path.mk
  | _ => []

/-- The files of a generated authority. -/
def storeFiles (s : AuthorityStore) : List Path :=
  [s.workDir, s.directory, s.keyFile, s.certificateFile, s.passphraseFile, s.publicFile]

/-- The files of an output. -/
def outputFiles (o : CertificateOutput) : List Path :=
  [o.directory, Bundle.certificateFile o.directory, Bundle.authoritiesFile o.directory,
    Bundle.keyFile o.directory]

/-- The files that settings name. -/
def namedFiles (s : Settings) (env : Environment) : List Path :=
  (s.envFiles.map fun file => ⟨Settings.expandHome env file⟩)
    ++ s.registry.certificates.map (·.file)
    ++ authorityFiles s.authority
    ++ storeFiles (.ofDirectory s.workDir)
    ++ s.outputs.flatMap outputFiles

/-- The files that a run reads or replaces, as far as the files of a disk tell. -/
def filesOf (disk : Disk) (env : Environment) (config : Option String) : List Path :=
  let config := config.map Path.mk
  config.toList ++ match Settings.load disk env config with
    | .ok (s, _) => namedFiles s env
    | .error _ => []

/-- The settings file that arguments name. -/
def configOf (env : Environment) (arguments : List String) : Option String :=
  (CommandLine.parse env.get? arguments).toOption.bind (·.config)

/-- The settings file whose changes a service follows that was started with arguments. -/
def watchedOf (env : Environment) (arguments : List String) : Option String :=
  (CommandLine.parse env.get? arguments).toOption.bind fun c =>
    if c.noWatch then none else c.config

/-- The files and directories that are new or differ, directories before what is in them. -/
def changes (before after : Disk) : List (List String × DiskNode) :=
  after.nodes.entries.filter fun e => before.nodes.get? e.1 ≠ some e.2

end Program

end DeviceAccess
