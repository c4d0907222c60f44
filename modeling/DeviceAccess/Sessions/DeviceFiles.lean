import DeviceAccess.Disk.Basic
import DeviceAccess.Fault

/-!
# Files of device certificates

The texts of the certificates that opened sessions, each in a file named for its hash.  A text that
is there is never written again.
-/

namespace DeviceAccess

/-- The fault of a file operation. -/
def DiskFault.fault (e : DiskFault) : Fault := .io e.message

/-- The outcome of a file operation as one of the gateway. -/
def fileResult {α : Type} (r : Except DiskFault α) : Except Fault α := r.mapError DiskFault.fault

namespace DeviceFiles

/-- The directory of the files. -/
def directory (workDir : Path) : Path := workDir.join "devices"

/-- Whether a text may be a hash: hexadecimal digits, at least one. -/
def isHash (hash : String) : Bool :=
  hash ≠ "" && hash.toList.all fun c =>
    c.isDigit || ('a' ≤ c && c ≤ 'f') || ('A' ≤ c && c ≤ 'F')

/-- The file of a hash. -/
def pathFor (workDir : Path) (hash : String) : Except Fault Path :=
  if isHash hash then .ok ((directory workDir).join (hash ++ ".pem"))
  else .error (.internal ("Invalid certificate hash '" ++ hash ++ "'"))

/-- Stores a text under its hash, unless there is one. -/
def store (workDir : Path) (hash text : String) (disk : Disk) : Disk × Except Fault Unit :=
  match pathFor workDir hash with
  | .error e => (disk, .error e)
  | .ok path =>
    if disk.holds path then (disk, .ok ())
    else
      match disk.makeDirectories (directory workDir) with
      | (disk, .error e) => (disk, .error e.fault)
      | (disk, .ok ()) =>
        let (disk, r) := disk.writeText path text
        (disk, fileResult r)

/-- The text stored under a hash, if there is one. -/
def load (workDir : Path) (hash : String) (disk : Disk) : Except Fault (Option String) :=
  match pathFor workDir hash with
  | .error e => .error e
  | .ok path =>
    match disk.readText path with
    | .ok text => .ok (some text)
    | .error .notFound => .ok none
    | .error e => .error e.fault

end DeviceFiles

end DeviceAccess
