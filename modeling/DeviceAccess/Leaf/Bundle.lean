import DeviceAccess.Disk.Basic

/-!
# Bundles

What a subscriber is handed whenever a certificate is issued to it: the certificate, the chain of the
authority that issued it, and the certificate's key.  A subscriber is a caller that takes bundles as
they come, or a directory that holds the last one.
-/

namespace DeviceAccess

/-- An issued certificate with what is needed to use it. -/
structure Bundle where
  certificate : String
  /-- The chain of the authority, the signing certificate first. -/
  authorities : List String
  key : String
  deriving DecidableEq

namespace Bundle

/-- The file of the certificate. -/
def certificateFile (directory : Path) : Path := directory.join "cert.pem"

/-- The file of the authority's chain. -/
def authoritiesFile (directory : Path) : Path := directory.join "ca.pem"

/-- The file of the key. -/
def keyFile (directory : Path) : Path := directory.join "key.pem"

/-- Writes a bundle to a directory, which is made if need be.  The files are written one after the
other until one fails. -/
def write (b : Bundle) (directory : Path) (disk : Disk) : Disk × Except DiskFault Unit :=
  match disk.makeDirectories directory with
  | (disk, .error e) => (disk, .error e)
  | (disk, .ok ()) =>
    match disk.writeText (certificateFile directory) b.certificate with
    | (disk, .error e) => (disk, .error e)
    | (disk, .ok ()) =>
      match disk.writeText (authoritiesFile directory) (String.join b.authorities) with
      | (disk, .error e) => (disk, .error e)
      | (disk, .ok ()) => disk.writePrivate (keyFile directory) b.key

end Bundle

/-- Where the bundles of a subscription go. -/
inductive Recipient where
  /-- A caller, by the name it gave. -/
  | caller (name : String)
  /-- A directory that holds the last bundle. -/
  | directory (path : Path)
  deriving DecidableEq

/-- The disk after a bundle was handed over; a directory that cannot be written keeps what it has. -/
def Recipient.receive (r : Recipient) (b : Bundle) (disk : Disk) : Disk :=
  match r with
  | caller _ => disk
  | directory path => (b.write path disk).1

end DeviceAccess
