import DeviceAccess.Certificate.Toolkit
import DeviceAccess.Sessions.DeviceFiles

/-!
# The authority

The gateway's certificate authority: a private key with a chain of certificates, the signing one
first.  It is generated, or imported from elsewhere.  A generated authority is kept in the work
directory, together with a passphrase, and taken up again when its key has the wanted algorithm.
The signing certificate in force is published in the file `ca.pem`.

Files are written before the authority in memory is replaced, so an operation that fails leaves the
authority in memory as it was.  `AuthorityStore.replace` reports the chain if it changed.
-/

namespace DeviceAccess

/-- An authority's key and its chain, the signing certificate first. -/
structure AuthorityMaterial where
  key : String
  signing : String
  /-- The rest of the chain. -/
  others : List String
  deriving DecidableEq

/-- The whole chain. -/
def AuthorityMaterial.chain (m : AuthorityMaterial) : List String := m.signing :: m.others

/-- What operations on files and keys work on: the disk and the source of random bytes. -/
structure World where
  disk : Disk
  entropy : Entropy

namespace World

/-- Runs an operation on the disk. -/
def onDisk {α : Type} (w : World) (f : Disk → Disk × Except DiskFault α) :
    World × Except Fault α :=
  let (disk, r) := f w.disk
  ({ w with disk }, fileResult r)

/-- Runs an operation that draws random bytes. -/
def draw {α : Type} (w : World) (f : StateM Entropy α) : World × α :=
  let (a, entropy) := f.run w.entropy
  ({ w with entropy }, a)

end World

/-- The authority in force and its place on disk. -/
structure AuthorityStore where
  workDir : Path
  material : Option AuthorityMaterial
  passphrase : Option String

/-- The outcome of an operation on the authority. -/
structure AuthorityOutcome where
  store : AuthorityStore
  world : World
  /-- The new chain, if the chain in memory changed. -/
  changed : Option (List String)
  result : Except Fault Unit

namespace AuthorityStore

/-- The store of a work directory, without an authority in memory. -/
def ofDirectory (workDir : Path) : AuthorityStore := ⟨workDir, none, none⟩

/-! ### Constants -/

/-- The name of a generated authority. -/
def commonName : String := "Edge Trust Core CA"

/-- The validity of a generated authority: five years. -/
def validity : Nat := 5 * 365 * 24 * 60 * 60

/-- Length of the passphrase in bytes. -/
def passphraseLength : Nat := 16

/-! ### Places -/

/-- The directory of the generated authority. -/
def directory (s : AuthorityStore) : Path := s.workDir.join "ca"

/-- The file of the generated authority's key. -/
def keyFile (s : AuthorityStore) : Path := s.directory.join "ca.key"

/-- The file of the generated authority's certificate. -/
def certificateFile (s : AuthorityStore) : Path := s.directory.join "ca.crt"

/-- The file of the passphrase. -/
def passphraseFile (s : AuthorityStore) : Path := s.directory.join "passphrase"

/-- The file that the signing certificate in force is published in. -/
def publicFile (s : AuthorityStore) : Path := s.workDir.join "ca.pem"

/-! ### What is in force -/

/-- Whether there is an authority. -/
def isReady (s : AuthorityStore) : Bool := s.material.isSome

/-- The fault of needing an authority when there is none. -/
def missing : Fault := .keyStore "No CA certificate configured"

/-- The authority in force. -/
def inForce (s : AuthorityStore) : Except Fault AuthorityMaterial :=
  match s.material with
  | some m => .ok m
  | none => .error missing

/-- The chain in force; empty if there is no authority. -/
def chain (s : AuthorityStore) : List String :=
  match s.material with
  | some m => m.chain
  | none => []

/-- Whether a certificate belongs to one of the gateway's own components: its chain leads to
the authority in force. -/
def isOwn (tk : Toolkit) (now : Int) (s : AuthorityStore) (text : String) : Bool :=
  !s.chain.isEmpty && tk.isIssuedBy now text (String.join s.chain)

/-! ### The passphrase -/

/-- The character of a random byte: one of the printable ones of ASCII but the last. -/
def passphraseChar (b : UInt8) : Char := Char.ofNat (b.toNat % 128 % 94 + 32)

/-- Draws a passphrase. -/
def newPassphrase : StateM Entropy String := do
  let b ← Entropy.bytes passphraseLength
  return String.ofList (b.map passphraseChar)

/-- The passphrase: the one in memory, else the one on disk if it has the right length, else a
new one, which is written to disk. -/
def readyPassphrase (s : AuthorityStore) (w : World) :
    AuthorityStore × World × Except Fault String :=
  match s.passphrase with
  | some p => (s, w, .ok p)
  | none =>
    let onFile := match w.disk.readText s.passphraseFile with
      | .ok p => if p.utf8ByteSize = passphraseLength then some p else none
      | .error _ => none
    match onFile with
    | some p => ({ s with passphrase := some p }, w, .ok p)
    | none =>
      let (w, p) := w.draw newPassphrase
      match w.onDisk fun d => d.makeDirectories s.directory with
      | (w, .error e) => (s, w, .error e)
      | (w, .ok ()) =>
        match w.onDisk fun d => d.writePrivate s.passphraseFile p with
        | (w, .error e) => (s, w, .error e)
        | (w, .ok ()) => ({ s with passphrase := some p }, w, .ok p)

/-! ### Replacing the authority -/

/-- Publishes the signing certificate and then puts the authority in force. -/
def replace (s : AuthorityStore) (w : World) (m : AuthorityMaterial) : AuthorityOutcome :=
  match w.onDisk fun d => d.makeDirectories s.workDir with
  | (w, .error e) => ⟨s, w, none, .error e⟩
  | (w, .ok ()) =>
    match w.onDisk fun d => d.writeText s.publicFile m.signing with
    | (w, .error e) => ⟨s, w, none, .error e⟩
    | (w, .ok ()) =>
      let changed := if s.material.map (·.chain) = some m.chain then none else some m.chain
      ⟨{ s with material := some m }, w, changed, .ok ()⟩

/-- The generated authority on disk, if its key has the algorithm and its certificate can be
read. -/
def persisted? (tk : Toolkit) (s : AuthorityStore) (disk : Disk) (keyType : KeyType) :
    Option AuthorityMaterial :=
  match disk.readText s.keyFile, disk.readText s.certificateFile with
  | .ok key, .ok certificate =>
    match tk.keyType key, tk.chain certificate with
    | .ok (some found), .ok _ => if found = keyType then some ⟨key, certificate, []⟩ else none
    | _, _ => none
  | _, _ => none

/-- Generates an authority and writes it to disk. -/
def generate (tk : Toolkit) (now : Int) (s : AuthorityStore) (w : World) (keyType : KeyType) :
    World × Except Fault AuthorityMaterial :=
  match w.draw (tk.newAuthority commonName keyType validity now) with
  | (w, .error e) => (w, .error e)
  | (w, .ok issued) =>
    match w.onDisk fun d => d.makeDirectories s.directory with
    | (w, .error e) => (w, .error e)
    | (w, .ok ()) =>
      match w.onDisk fun d => d.writePrivate s.keyFile issued.key with
      | (w, .error e) => (w, .error e)
      | (w, .ok ()) =>
        match w.onDisk fun d => d.writeText s.certificateFile issued.certificate with
        | (w, .error e) => (w, .error e)
        | (w, .ok ()) => (w, .ok ⟨issued.key, issued.certificate, []⟩)

/-- Puts a generated authority in force: the one on disk if it fits, else a new one. -/
def update (tk : Toolkit) (now : Int) (s : AuthorityStore) (w : World) (keyType : KeyType) :
    AuthorityOutcome :=
  match s.readyPassphrase w with
  | (s, w, .error e) => ⟨s, w, none, .error e⟩
  | (s, w, .ok _) =>
    match s.persisted? tk w.disk keyType with
    | some m => s.replace w m
    | none =>
      match s.generate tk now w keyType with
      | (w, .error e) => ⟨s, w, none, .error e⟩
      | (w, .ok m) => s.replace w m

/-- Checks imported material: the key has to be usable, every certificate readable, and the key
the one of the signing certificate. -/
def checkImport (tk : Toolkit) (key : String) (chain : List String) :
    Except Fault AuthorityMaterial :=
  match chain with
  | [] => .error (.keyStore "CA certificate chain is empty")
  | signing :: others => do
    let _ ← tk.keyType key
    for text in chain do
      let _ ← (tk.chain text).mapError fun e => Fault.keyStore e.message
    if ← tk.certifiedBy key signing then return ⟨key, signing, others⟩
    else throw (.keyStore "CA private key does not match the CA certificate")

/-- Puts an imported authority in force. -/
def install (tk : Toolkit) (s : AuthorityStore) (w : World) (key : String)
    (chain : List String) : AuthorityOutcome :=
  match checkImport tk key chain with
  | .error e => ⟨s, w, none, .error e⟩
  | .ok m => s.replace w m

end AuthorityStore

end DeviceAccess
