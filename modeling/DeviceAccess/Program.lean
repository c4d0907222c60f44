import DeviceAccess.CommandLine.Help
import DeviceAccess.Config.Loading
import DeviceAccess.Service.Reload

/-!
# The program

What a run of the program does with its arguments, its environment and its files: it answers a request
for help, checks settings and prints what they contain, or starts the service, which then keeps
running.  A run that fails reports one error, with the contexts it happened in, and exits with one; a
command line that cannot be read exits with two.
-/

namespace DeviceAccess

namespace LogFilter

/-- One rule of a filter: the start of the names it is for, and whether errors are shown. -/
structure Rule where
  target : String
  showsErrors : Bool

/-- Whether a text is the level that shows nothing. -/
def isOff (level : String) : Bool := level.toLower = "off" || level = "0"

/-- Whether a text is a level. -/
def isLevel (text : String) : Bool :=
  ["off", "error", "warn", "info", "debug", "trace"].contains text.toLower
    || ["0", "1", "2", "3", "4", "5"].contains text

/-- Reads a rule: a level, the name of a part of the program, or both. -/
def Rule.ofText (text : String) : Rule :=
  match text.splitOn "=" with
  | [target, level] => ⟨target, !isOff level⟩
  | _ => if isLevel text then ⟨"", !isOff text⟩ else ⟨text, true⟩

/-- The name under which the program reports errors. -/
def programTarget : String := "edge_trust"

/-- Whether a filter shows the program's errors: the rule with the longest name that fits decides,
and without any rule errors are shown. -/
def showsErrors (filter : String) : Bool :=
  match (filter.splitOn ",").filter (· ≠ "") with
  | [] => true
  | parts =>
    let fitting := (parts.map Rule.ofText).filter fun r => programTarget.startsWith r.target
    let best := fitting.foldl (fun (best : Option Rule) r =>
      match best with
      | some b => if b.target.length ≤ r.target.length then some r else best
      | none => some r) none
    match best with
    | some r => r.showsErrors
    | none => false

end LogFilter

namespace Program

/-- What a run comes to. -/
structure Run where
  exit : Nat
  printed : List String
  /-- The error that ended the run. -/
  error : Option String
  /-- What is wrong with the command line. -/
  complaint : Option String
  /-- The files after the run. -/
  disk : Disk
  /-- The service that was started. -/
  service : Option Service

/-- A run that prints what was asked for. -/
def Run.done (disk : Disk) (printed : List String) : Run := ⟨0, printed, none, none, disk, none⟩

/-- A run that fails with an error, which is shown or not. -/
def Run.failed (disk : Disk) (error : Option String) : Run := ⟨1, [], error, none, disk, none⟩

/-- The error of a fault in a context. -/
def inContext {α : Type} (context : String) (r : Except Fault α) : Except String α :=
  r.mapError fun e => context ++ ": " ++ e.message

/-- Loads the settings. -/
def loadSettings (disk : Disk) (env : Environment) (config : Option String) :
    Except String Settings :=
  (inContext "Failed to load configuration" (Settings.load disk env (config.map Path.mk))).map (·.1)

/-- What settings contain. -/
def summary (s : Settings) : List String :=
  let authority := if s.authority.isImported then "custom" else s.authority.keyType.name
  ["✅ configuration valid",
    "   Work dir: " ++ s.workDir.text,
    "   CA: " ++ authority,
    "   Groups: " ++ toString s.groups.definitions.size ++ " ("
      ++ toString s.groups.policies.size ++ " policies)",
    "   Session capacity: " ++ toString s.session.capacity.toNat,
    "   Registered certificates: " ++ toString s.registry.certificates.length]
  ++ s.outputs.map fun o =>
    "   Output: " ++ o.service ++ " (" ++ o.kind.name ++ ") -> " ++ o.directory.text

/-- Loads and checks the settings. -/
def validate (disk : Disk) (env : Environment) (config : Option String) :
    Except String (List String) := do
  let s ← loadSettings disk env config
  inContext "Invalid configuration" s.validate
  return summary s

/-- The offline registry of the records in the settings. -/
def registryOf (disk : Disk) (settings : RegistrySettings) : Except String IdentityRegistry :=
  settings.certificates.foldlM (fun r record =>
    match disk.readText record.file with
    | .error e => .error
      ("Failed to read certificate " ++ record.id ++ " from " ++ record.file.text ++ ": " ++ e.message)
    | .ok text =>
      .ok (record.things.foldl (fun r thing => r.attach thing record.id)
        (r.register text record.id))) .empty

/-- Builds the service. -/
def build (world : World) (env : Environment) (calendar : Int) (config : Option String) :
    Except String Service := do
  let settings ← loadSettings world.disk env config
  let registry ← registryOf world.disk settings.registry
  inContext "Failed to create service" (Service.new world registry calendar true settings)

/-- Loads the settings again and puts them in force. -/
def reload (tk : Toolkit) (env : Environment) (config : String) (service : Service) :
    Service × Except String Patch :=
  match loadSettings service.disk env (some config) with
  | .error e => (service, .error e)
  | .ok settings =>
    let (service, r) := service.reload tk settings
    (service, inContext "Failed to apply configuration" r)

/-- Whether errors are shown. -/
def showsErrors (env : Environment) (c : CommandLine) : Bool :=
  LogFilter.showsErrors ((env.get? "RUST_LOG").getD c.logLevel)

/-- Runs a command line. -/
def runCommand (tk : Toolkit) (world : World) (env : Environment) (calendar : Int)
    (c : CommandLine) : Run :=
  let shown := fun (e : String) => if showsErrors env c then some e else none
  match c.command with
  | some .validate =>
    match validate world.disk env c.config with
    | .ok printed => .done world.disk printed
    | .error e => .failed world.disk (shown e)
  | _ =>
    match build world env calendar c.config with
    | .error e => .failed world.disk (shown e)
    | .ok service =>
      let (service, started) := service.start tk
      match inContext "Failed to start service" started with
      | .error e => .failed service.disk (shown e)
      | .ok () => { Run.done service.disk [] with service := some service }

/-- Runs the program. -/
def run (tk : Toolkit) (world : World) (env : Environment) (calendar : Int)
    (arguments : List String) : Run :=
  match CommandLine.parse env.get? arguments with
  | .error (.displayHelp topic) => .done world.disk (Help.page env.get? topic)
  | .error .displayVersion => .done world.disk [Help.version]
  | .error e => ⟨2, [], none, Help.complaint e, world.disk, none⟩
  | .ok c => runCommand tk world env calendar c

end Program

end DeviceAccess
