import DeviceAccess.Program.Files
import Std.Time.DateTime.Timestamp

/-!
# The command line program

The outer layer: it gives a run the environment, the files, the time and the random bytes of the machine
it is on, prints what the run comes to and stores the files that the run changed.  A service that was
started is kept going second by second, and its settings file is read again whenever its text changes.
-/

namespace DeviceAccess

namespace Machine

/-- The variables that the program was started with. -/
def environment : IO Environment := do
  let .ok stored ← (IO.FS.readBinFile "/proc/self/environ").toBaseIO | return ∅
  let entries := ((String.fromUTF8? stored).getD "").splitOn "\x00"
  return OrderedMap.ofList <| entries.filterMap fun entry =>
    match entry.splitOn "=" with
    | name :: first :: rest => some (name, "=".intercalate (first :: rest))
    | _ => none

/-- Seconds since the start of 1970. -/
def calendar : IO Int := return (← Std.Time.Timestamp.now).toSecondsSinceUnixEpoch.val

/-- The names of the current directory. -/
def currentDirectory : IO (List String) :=
  return ((← IO.currentDir).toString.splitOn "/").filter (· ≠ "")

/-- The path of names. -/
def place (names : List String) : String := "/" ++ "/".intercalate names

/-- What is at a place that can be read. -/
def node? (names : List String) : IO (Option DiskNode) := do
  if ← ((← IO.currentDir) / place names).isDir then return some .directory
  let .ok stored ← (IO.FS.readBinFile (place names)).toBaseIO | return none
  let content : FileContent := match String.fromUTF8? stored with
    | some text => .text text
    | none => .bytes stored.toList
  return some (.file content Disk.plainMode)

/-- Reads a path and the directories above it. -/
def read (disk : Disk) (path : Path) : IO Disk := do
  let names := disk.resolve path
  let mut disk := disk
  for size in List.range (names.length + 1) do
    if let some node ← node? (names.take size) then
      disk := disk.put (names.take size) node
  return disk

/-- Reads the files of a run. -/
def readAll (disk : Disk) (env : Environment) (config : Option String) : IO Disk := do
  let mut disk := disk
  for _ in List.range Program.readingRounds do
    for path in Program.filesOf disk env config do
      disk ← read disk path
  return disk

/-- Stores a file or a directory. -/
def store (names : List String) : DiskNode → IO Unit
  | .directory => IO.FS.createDirAll (place names)
  | .file content mode => do
    match content with
    | .text text => IO.FS.writeFile (place names) text
    | .bytes bytes => IO.FS.writeBinFile (place names) ⟨bytes.toArray⟩
    if mode = Disk.privateMode then
      IO.setAccessRights (place names) { user := { read := true, write := true } }

/-- Stores what changed. -/
def storeAll (before after : Disk) : IO Unit :=
  (Program.changes before after).forM fun e => store e.1 e.2

/-- Puts the settings of a file in force again if its text is no longer the one given; the second part
is the text. -/
def follow (env : Environment) (config : Option String) (service : Service) (known : Option String) :
    IO (Service × Option String) := do
  let some config := config | return (service, known)
  let .ok stored ← (IO.FS.readBinFile config).toBaseIO | return (service, known)
  let text := String.fromUTF8? stored
  if text = known then return (service, known)
  let disk ← readAll service.disk env (some config)
  let (service, reloaded) :=
    Program.reload .standard env config (service.onDisk fun _ => disk)
  if let .error e := reloaded then IO.eprintln e
  storeAll disk service.disk
  return (service, text)

/-- Keeps a service going. -/
def keep (env : Environment) (watched : Option String) (service : Service) : IO Unit := do
  let mut service := service
  let mut known ← match watched with
    | some config => pure ((service.disk.readText ⟨config⟩).toOption)
    | none => pure none
  repeat
    IO.sleep 1000
    let before := service.disk
    service := service.pass .standard (← calendar) 1000
    storeAll before service.disk
    (service, known) ← follow env watched service known

end Machine

end DeviceAccess

open DeviceAccess in
/-- Runs the program on this machine. -/
def main (arguments : List String) : IO UInt32 := do
  let env ← Machine.environment
  let disk ← Machine.readAll { Disk.empty with current := ← Machine.currentDirectory } env
    (Program.configOf env arguments)
  let world : World := ⟨disk, .ofSeed (← IO.getRandomBytes 32).toList⟩
  let run := Program.run .standard world env (← Machine.calendar) arguments
  Machine.storeAll disk run.disk
  run.printed.forM IO.println
  run.complaint.forM fun text => IO.eprintln ("error: " ++ text)
  run.error.forM fun text => IO.eprintln ("ERROR " ++ text)
  run.service.forM (Machine.keep env (Program.watchedOf env arguments))
  return run.exit.toUInt32
