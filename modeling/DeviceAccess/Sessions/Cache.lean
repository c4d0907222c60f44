import DeviceAccess.Ordered

/-!
# The session cache

A cache of live sessions under their ids, bounded by a capacity that every insertion names
anew.  Each use of an entry gives it a fresh tick, so ticks order the entries by recency; the
entries are kept by id and, beside that, by tick.  When an insertion exceeds the capacity, the
entries with the least ticks go.  The capacity never counts as less than one, so an insertion
never evicts what it inserted.

The cache does not look at sessions, it only tells them apart: two entries hold the same session
if they hold equal handles.
-/

namespace DeviceAccess

/-- A cached session with the time of its last use. -/
structure CacheEntry (σ : Type) where
  session : σ
  lastVisit : Nat
  tick : Nat
  deriving DecidableEq

/-- Sessions by id and ids by recency. -/
structure SessionCache (σ : Type) where
  entries : OrderedMap String (CacheEntry σ)
  /-- The ids, each under the tick of its last use. -/
  order : OrderedMap Nat String
  /-- The last tick given. -/
  lastTick : Nat

namespace SessionCache

variable {σ : Type}

/-- The cache without sessions. -/
def empty : SessionCache σ := ⟨∅, ∅, 0⟩

/-- Number of live sessions. -/
def size (c : SessionCache σ) : Nat := c.entries.size

/-- Whether there is no live session. -/
def isEmpty (c : SessionCache σ) : Bool := c.entries.isEmpty

/-- Whether an id is live; this is no use of it. -/
def contains (c : SessionCache σ) (id : String) : Bool := c.entries.contains id

/-- Looks up a session without using it. -/
def peek? (c : SessionCache σ) (id : String) : Option σ := (c.entries.get? id).map (·.session)

/-- The ids from the least to the most recently used. -/
def idsByRecency (c : SessionCache σ) : List String := c.order.values

/-- Looks up a session and marks it as used at `now`.  A tick is spent in any case. -/
def touch (c : SessionCache σ) (id : String) (now : Nat) : SessionCache σ × Option σ :=
  let tick := c.lastTick + 1
  match c.entries.get? id with
  | none => ({ c with lastTick := tick }, none)
  | some e =>
    ({ entries := c.entries.insert id { e with lastVisit := now, tick := tick }
       order := (c.order.erase e.tick).insert tick id
       lastTick := tick },
     some e.session)

/-- Drops the least recently used entries until at most `limit` are left; the second part is
the ids that went, oldest first. -/
def evict (limit : Nat) (entries : OrderedMap String (CacheEntry σ)) (order : OrderedMap Nat String) :
    OrderedMap String (CacheEntry σ) × OrderedMap Nat String × List String :=
  if limit < entries.size then
    match _h : order.popFirst? with
    | none => (entries, order, [])
    | some (oldest, rest) =>
      let (entries', order', ids) := evict limit (entries.erase oldest.2) rest
      (entries', order', oldest.2 :: ids)
  else (entries, order, [])
termination_by order.size
decreasing_by
  have := OrderedMap.size_of_popFirst? _h
  omega

/-- Adds a session under a free id, then evicts down to the capacity.  An id that is taken
changes nothing and gives no answer; otherwise the answer is the evicted ids, oldest first. -/
def insert (c : SessionCache σ) (id : String) (session : σ) (now capacity : Nat) :
    SessionCache σ × Option (List String) :=
  if c.contains id then (c, none)
  else
    let tick := c.lastTick + 1
    let (entries, order, evicted) := evict (max capacity 1)
      (c.entries.insert id ⟨session, now, tick⟩) (c.order.insert tick id)
    (⟨entries, order, tick⟩, some evicted)

/-- Changes the session of an id; this is no use of it. -/
def update (c : SessionCache σ) (id : String) (f : σ → σ) : SessionCache σ :=
  match c.entries.get? id with
  | none => c
  | some e => { c with entries := c.entries.insert id { e with session := f e.session } }

/-- Removes a session. -/
def remove (c : SessionCache σ) (id : String) : SessionCache σ × Option σ :=
  match c.entries.get? id with
  | none => (c, none)
  | some e =>
    ({ c with entries := c.entries.erase id, order := c.order.erase e.tick }, some e.session)

/-- Removes a session if the id still stands for it. -/
def removeIfSame [DecidableEq σ] (c : SessionCache σ) (id : String) (session : σ) :
    SessionCache σ × Bool :=
  if c.peek? id = some session then ((c.remove id).1, true) else (c, false)

/-- The sessions last used more than `timeout` before `now`, in the order of their ids. -/
def idleSince (c : SessionCache σ) (now timeout : Nat) : List (String × σ) :=
  (c.entries.entries.filter fun e => decide (timeout < now - e.2.lastVisit)).map
    fun e => (e.1, e.2.session)

/-- All sessions, in the order of their ids. -/
def snapshot (c : SessionCache σ) : List (String × σ) :=
  c.entries.entries.map fun e => (e.1, e.2.session)

end SessionCache

end DeviceAccess
