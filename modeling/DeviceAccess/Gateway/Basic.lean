import DeviceAccess.Authority.Material
import DeviceAccess.Leaf.Subscriptions
import DeviceAccess.Policy.Groups
import DeviceAccess.Sessions.Manager

/-!
# The gateway

The parts of the gateway together, and what changes its certificates.  Whatever puts a new chain of the
authority in force also gives every subscription a certificate of the new authority
(`Gateway.settle`); an authority that could not be put in force changes no subscription.

Times are seconds since the start of 1970 where certificates are concerned.
-/

namespace DeviceAccess

/-- The parts of the gateway, with the disk and the random bytes they work on. -/
structure Gateway where
  world : World
  sessions : SessionManager
  groups : Groups
  authority : AuthorityStore
  subscriptions : Subscriptions

namespace Gateway

/-- A gateway on a work directory, without sessions, groups, authority and subscriptions. -/
def new (world : World) (workDir : Path) (settings : LeafSettings) : Gateway where
  world := world
  sessions := .empty
  groups := .empty
  authority := .ofDirectory workDir
  subscriptions := .empty settings

/-- Runs an operation on the disk. -/
def onDisk {α : Type} (g : Gateway) (f : Disk → Disk × Except Fault α) :
    Gateway × Except Fault α :=
  let (disk, r) := f g.world.disk
  ({ g with world := { g.world with disk } }, r)

variable (tk : Toolkit) (now : Int)

/-! ### The authority -/

/-- The gateway after an operation on its authority. -/
def settle (g : Gateway) (o : AuthorityOutcome) : Gateway × Except Fault Unit :=
  let g := { g with authority := o.store, world := o.world }
  match o.changed with
  | none => (g, o.result)
  | some _ =>
    let (subscriptions, world) := g.subscriptions.chainChanged tk now g.authority g.world
    ({ g with subscriptions, world }, o.result)

/-- Puts a generated authority in force. -/
def generateAuthority (g : Gateway) (keyType : KeyType) : Gateway × Except Fault Unit :=
  g.settle tk now (g.authority.update tk now g.world keyType)

/-- Puts an imported authority in force. -/
def importAuthority (g : Gateway) (material : KeyMaterial) : Gateway × Except Fault Unit :=
  g.settle tk now (g.authority.install tk g.world material.key material.chain)

/-! ### Subscriptions -/

/-- Subscribes under a name. -/
def subscribe (g : Gateway) (key : SubscriptionKey) (recipient : Recipient) :
    Gateway × Except Fault Unit :=
  let (subscriptions, world, r) :=
    g.subscriptions.subscribe tk now g.authority g.world key recipient
  ({ g with subscriptions, world }, r)

/-- Gives up the subscription of a name; the second part is whether there was one. -/
def unsubscribe (g : Gateway) (key : SubscriptionKey) : Gateway × Bool :=
  let (subscriptions, found) := g.subscriptions.unsubscribe key
  ({ g with subscriptions }, found)

/-- Records the addresses that a source reports. -/
def recordAddresses (g : Gateway) (source : String) (addresses : List HostAddress) :
    Gateway × ReachabilityChange :=
  let (subscriptions, world, change) :=
    g.subscriptions.recordAddresses tk now g.authority g.world source addresses
  ({ g with subscriptions, world }, change)

/-- Renews the certificates that are due at a time, given in milliseconds; the number is how many
renewals succeeded. -/
def renew (g : Gateway) (millis : Int) : Gateway × Nat :=
  let (subscriptions, world, n) := g.subscriptions.renew tk now g.authority g.world millis
  ({ g with subscriptions, world }, n)

end Gateway

end DeviceAccess
