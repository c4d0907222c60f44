import DeviceAccess.Net.IpAddress
import DeviceAccess.Ordered

/-!
# Reachability

The addresses at which the gateway can be reached are reported by several sources, such as the
configuration and the cloud.  Each source has its own set, which it replaces as a whole; the
gateway's addresses are the union.  `Reachability.record` replaces the set of one source and
tells what the union gained and lost, so an address that two sources claim stays until both
drop it.
-/

namespace DeviceAccess

/-- A host name or the text of an Internet address. -/
abbrev HostAddress := String

namespace HostAddress

/-- The Internet address that a host is the text of. -/
def ip? (host : HostAddress) : Option IpAddress := IpAddress.parse? host

/-- Whether a host is an Internet address or `localhost`. -/
def isValid (host : HostAddress) : Bool := (ip? host).isSome || host = "localhost"

end HostAddress

/-- What one report changed in the union. -/
structure ReachabilityChange where
  added : OrderedSet HostAddress
  removed : OrderedSet HostAddress
  deriving DecidableEq

/-- Whether the union stayed as it was. -/
def ReachabilityChange.isEmpty (c : ReachabilityChange) : Bool :=
  c.added.isEmpty && c.removed.isEmpty

/-- The addresses that each source reported last. -/
structure Reachability where
  bySource : OrderedMap String (OrderedSet HostAddress)
  deriving DecidableEq

namespace Reachability

/-- The source of the addresses in the configuration. -/
def configurationSource : String := "configuration"

/-- No source has reported yet. -/
def empty : Reachability := ⟨∅⟩

/-- The addresses of one source. -/
def ofSource (r : Reachability) (source : String) : OrderedSet HostAddress :=
  (r.bySource.get? source).getD ∅

/-- The addresses of all sources. -/
def all (r : Reachability) : OrderedSet HostAddress :=
  r.bySource.values.foldl OrderedSet.union ∅

/-- Replaces the addresses of one source; a source without addresses is forgotten. -/
def replace (r : Reachability) (source : String) (addresses : List HostAddress) : Reachability :=
  let set := OrderedSet.ofList addresses
  if set.isEmpty then ⟨r.bySource.erase source⟩ else ⟨r.bySource.insert source set⟩

/-- Replaces the addresses of one source and tells how the union changed. -/
def record (r : Reachability) (source : String) (addresses : List HostAddress) :
    Reachability × ReachabilityChange :=
  let next := r.replace source addresses
  (next, ⟨next.all.diff r.all, r.all.diff next.all⟩)

end Reachability

end DeviceAccess
