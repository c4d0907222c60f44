import DeviceAccess.Identity.Session
import DeviceAccess.Identity.Source
import DeviceAccess.Sessions.Cache

/-!
# Live sessions

The session cache with its capacity, and the two sweeps over it.

A refresh asks the identity source about the certificate of every session once more.  A session goes
when the answer is negative, when its thing is no longer attached, or when the stored text of its
certificate is gone or no longer has the hash it is stored under.  A question that fails closes
nothing (`SessionManager.refresh`).  The idle sweep closes the sessions that nobody used for a
while (`SessionManager.closeIdle`).
-/

namespace DeviceAccess

/-- Live sessions and how many there may be. -/
structure SessionManager where
  cache : SessionCache Session
  capacity : Nat

namespace SessionManager

/-- The capacity when none was set. -/
def standardCapacity : Nat := 1000

/-- The greatest capacity. -/
def greatestCapacity : Nat := 2147483646

/-- No sessions yet. -/
def empty : SessionManager := ⟨.empty, standardCapacity⟩

/-- Number of live sessions. -/
def size (m : SessionManager) : Nat := m.cache.size

/-- The capacity with the nearest value that is allowed; it counts from the next session on. -/
def setCapacity (m : SessionManager) (capacity : Nat) : SessionManager :=
  { m with capacity := max 1 (min capacity greatestCapacity) }

/-- Looks up a session and marks it as used. -/
def find (m : SessionManager) (id : String) (now : Nat) : SessionManager × Option Session :=
  let (cache, s) := m.cache.touch id now
  ({ m with cache }, s)

/-- Changes a session; this is no use of it. -/
def update (m : SessionManager) (id : String) (f : Session → Session) : SessionManager :=
  { m with cache := m.cache.update id f }

/-- Adds a session under a free id; the least recently used ones go if there are too many. -/
def add (m : SessionManager) (id : String) (session : Session) (now : Nat) :
    SessionManager × Option (List String) :=
  let (cache, evicted) := m.cache.insert id session now m.capacity
  ({ m with cache }, evicted)

/-- Closes a session. -/
def close (m : SessionManager) (id : String) : SessionManager × Except Fault Unit :=
  match m.cache.remove id with
  | (cache, some _) => ({ m with cache }, .ok ())
  | (_, none) =>
    (m, .error (.sessionNotFound s!"No session is associated with session id ({id})"))

/-- Closes a session if the id still stands for it. -/
def closeIfSame (m : SessionManager) (e : String × Session) : SessionManager × Bool :=
  let (cache, closed) := m.cache.removeIfSame e.1 e.2
  ({ m with cache }, closed)

/-- Closes those of the given sessions whose ids still stand for them; the second part is how
many that were. -/
def closeAll (m : SessionManager) (l : List (String × Session)) : SessionManager × Nat :=
  l.foldl (fun (m, n) e =>
    let (m, closed) := m.closeIfSame e
    (m, if closed then n + 1 else n)) (m, 0)

/-- Closes the sessions that were not used for longer than `timeout`. -/
def closeIdle (m : SessionManager) (now timeout : Nat) : SessionManager × Nat :=
  m.closeAll (m.cache.idleSince now timeout)

/-! ### Refresh -/

/-- The hash of a session's certificate. -/
def hashOf (s : Session) : Option String := s.certificate?.map (·.hash)

/-- The hashes of the certificates of live sessions, each once. -/
def hashes (m : SessionManager) : List String :=
  (m.cache.snapshot.filterMap fun e => hashOf e.2).eraseDups

/-- Whether the identity source denies that the thing of the session `sessionId` is attached to a
certificate, and what was asked for that. -/
def isDetached (source : SweepSource) (sessionId id : String) (s : Session) :
    Bool × List Question :=
  match s.thing? with
  | none => (false, [])
  | some thing =>
    (match source.isAttached sessionId thing id with
      | .ok attached => !attached
      | .error _ => false, [.attachment thing id])

/-- Checks the sessions of one certificate, whose stored text is loaded from `files`. -/
def refreshCertificate (files : String → Except Fault (Option String)) (hash : String → String)
    (source : SweepSource) (m : SessionManager) (name : String) :
    SessionManager × List Question :=
  let sessions := m.cache.snapshot.filter fun e => hashOf e.2 = some name
  match files name with
  | .error _ => ((m.closeAll sessions).1, [])
  | .ok none => ((m.closeAll sessions).1, [])
  | .ok (some text) =>
    if hash text ≠ name then ((m.closeAll sessions).1, [])
    else
      match source.activeId text with
      | .error _ => (m, [.certificate text])
      | .ok none => ((m.closeAll sessions).1, [.certificate text])
      | .ok (some id) =>
        let checked := sessions.map fun e => (e, isDetached source e.1 id e.2)
        let detached := checked.filterMap fun c => if c.2.1 then some c.1 else none
        ((m.closeAll detached).1, .certificate text :: checked.flatMap fun c => c.2.2)

/-- Checks all sessions, certificate by certificate. -/
def refresh (files : String → Except Fault (Option String)) (hash : String → String)
    (source : SweepSource) (m : SessionManager) : SessionManager × List Question :=
  m.hashes.foldl (fun (m, asked) name =>
    let (m, more) := m.refreshCertificate files hash source name
    (m, asked ++ more)) (m, [])

end SessionManager

end DeviceAccess
