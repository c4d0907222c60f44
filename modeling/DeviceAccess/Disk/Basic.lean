import DeviceAccess.Disk.Path
import DeviceAccess.Ordered

/-!
# The disk

The files and directories that the gateway works with, as a map from absolute paths.  A file
holds a text, or bytes that are no text, and has a mode.  Every write names its outcome in
advance: `writeFaults` says of each coming write whether the device fails it, and a write that
fails leaves the disk's files as they were.

Reading and writing report why they fail (`DiskFault`); what matters to callers is whether a
file is absent.
-/

namespace DeviceAccess

/-- What a file holds. -/
inductive FileContent where
  | text (text : String)
  /-- Bytes that are not UTF-8. -/
  | bytes (bytes : List UInt8)
  deriving DecidableEq

/-- A file or a directory. -/
inductive DiskNode where
  | file (content : FileContent) (mode : Nat)
  | directory
  deriving DecidableEq

/-- Why an operation on the disk failed. -/
inductive DiskFault where
  | notFound
  | notDirectory
  | isDirectory
  | alreadyExists
  | notText
  | invalidName
  | deviceFailed
  deriving DecidableEq, Repr

/-- The report of a fault. -/
def DiskFault.message : DiskFault → String
  | notFound => "No such file or directory"
  | notDirectory => "Not a directory"
  | isDirectory => "Is a directory"
  | alreadyExists => "File exists"
  | notText => "stream did not contain valid UTF-8"
  | invalidName => "Invalid file name"
  | deviceFailed => "Input/output error"

/-- Files and directories by absolute path. -/
structure Disk where
  nodes : OrderedMap (List String) DiskNode
  /-- The directory that relative paths start from. -/
  current : List String
  /-- Of each coming write, whether it fails. -/
  writeFaults : List Bool

namespace Disk

/-- The mode of a new file. -/
def plainMode : Nat := 0o644

/-- The mode of a file for its owner only. -/
def privateMode : Nat := 0o600

/-- A disk without files. -/
def empty : Disk := ⟨∅, [], []⟩

/-- The absolute form of a path: its names from the root on. -/
def resolve (d : Disk) (p : Path) : List String :=
  let start := if p.isAbsolute then [] else d.current
  p.components.foldl (fun names c =>
    if c = "/" ∨ c = "." then names
    else if c = ".." then names.dropLast
    else names ++ [c]) start

/-- What is at an absolute path; the root is always there. -/
def node? (d : Disk) (names : List String) : Option DiskNode :=
  if names.isEmpty then some .directory else d.nodes.get? names

/-- Whether a name can be used. -/
def nameOk (name : String) : Bool := name.utf8ByteSize ≤ 255 && !name.toList.contains '\x00'

/-- Looks up an absolute path, or tells why nothing is there. -/
def find (d : Disk) (names : List String) : Except DiskFault DiskNode :=
  if names.any fun n => !nameOk n then .error .invalidName
  else match d.node? names with
    | some n => .ok n
    | none =>
      let above := (List.range names.length).map fun k => d.node? (names.take k)
      if above.any fun n => match n with
        | some (.file _ _) => true
        | _ => false
      then .error .notDirectory
      else .error .notFound

/-- Whether a path is in use. -/
def holds (d : Disk) (p : Path) : Bool :=
  p.text ≠ "" && (d.find (d.resolve p)).toOption.isSome

/-- Whether a path is a file. -/
def isFile (d : Disk) (p : Path) : Bool :=
  match d.find (d.resolve p) with
  | .ok (.file _ _) => p.text ≠ ""
  | _ => false

/-- Reads the text of a file. -/
def readText (d : Disk) (p : Path) : Except DiskFault String :=
  if p.text = "" then .error .notFound
  else match d.find (d.resolve p) with
    | .ok (.file (.text t) _) => .ok t
    | .ok (.file (.bytes _) _) => .error .notText
    | .ok .directory => .error .isDirectory
    | .error e => .error e

/-- Whether the device fails the next write, and the disk after that is known. -/
def nextFault (d : Disk) : Bool × Disk :=
  match d.writeFaults with
  | [] => (false, d)
  | b :: bs => (b, { d with writeFaults := bs })

/-- Puts a node at an absolute path. -/
def put (d : Disk) (names : List String) (n : DiskNode) : Disk :=
  { d with nodes := d.nodes.insert names n }

/-- Writes a file, whose directory has to be there.  A new file gets the given mode; an
existing one keeps its own unless `forceMode`. -/
def write (d : Disk) (p : Path) (content : FileContent) (mode : Nat) (forceMode : Bool) :
    Disk × Except DiskFault Unit :=
  let (faulty, d) := d.nextFault
  if faulty then (d, .error .deviceFailed)
  else if p.text = "" then (d, .error .notFound)
  else
    let names := d.resolve p
    match d.find names with
    | .ok .directory => (d, .error .isDirectory)
    | .ok (.file _ old) =>
      (d.put names (.file content (if forceMode then mode else old)), .ok ())
    | .error .notFound =>
      match d.find names.dropLast with
      | .ok .directory => (d.put names (.file content mode), .ok ())
      | .ok (.file _ _) => (d, .error .notDirectory)
      | .error e => (d, .error e)
    | .error e => (d, .error e)

/-- Writes a text file. -/
def writeText (d : Disk) (p : Path) (text : String) : Disk × Except DiskFault Unit :=
  d.write p (.text text) plainMode false

/-- Writes a text file that only its owner may read. -/
def writePrivate (d : Disk) (p : Path) (text : String) : Disk × Except DiskFault Unit :=
  d.write p (.text text) privateMode true

/-- Makes a directory with all directories above it. -/
def makeDirectories (d : Disk) (p : Path) : Disk × Except DiskFault Unit :=
  let names := d.resolve p
  (List.range (names.length + 1)).foldl (fun acc k =>
    match acc with
    | (d, .error e) => (d, .error e)
    | (d, .ok ()) =>
      let here := names.take k
      if here.any fun n => !nameOk n then (d, .error .invalidName)
      else match d.node? here with
        | some .directory => (d, .ok ())
        | some (.file _ _) =>
          (d, .error (if k = names.length then .alreadyExists else .notDirectory))
        | none => (d.put here .directory, .ok ())) (d, .ok ())

/-- Removes whatever is at a path and below. -/
def remove (d : Disk) (p : Path) : Disk :=
  let names := d.resolve p
  { d with nodes := d.nodes.filter fun k _ => !names.isPrefixOf k }

/-- Everything below a directory, with paths relative to it. -/
def below (d : Disk) (p : Path) : List (List String × DiskNode) :=
  let names := d.resolve p
  d.nodes.entries.filterMap fun e =>
    if names.isPrefixOf e.1 && names.length < e.1.length then
      some (e.1.drop names.length, e.2)
    else none

end Disk

end DeviceAccess
