import DeviceAccess.Policy.Variable
import DeviceAccess.Policy.Resource

/-!
# Permissions and requests

A permission grants the operations that one operation pattern covers on the resources that
one resource pattern covers.  It remembers which variable-shaped tokens its resource holds;
`Permission.resolve` puts a session's attributes in their place.

A request is granted if it is well formed, names one service in both halves, and is covered by
some permission (`isAuthorized`).  There are no denials.
-/

namespace DeviceAccess

/-- A granted operation on a granted resource. -/
structure Permission where
  /-- The group that grants it. -/
  principal : String
  operation : String
  resource : String
  /-- The variable-shaped tokens of the resource. -/
  tokens : OrderedSet String
  deriving DecidableEq

namespace Permission

/-- The permission of a group on a resource as it is written in a policy. -/
def ofPolicy (principal operation resource : String) : Permission :=
  ⟨principal, operation, resource, PolicyVariable.candidates resource⟩

/-- The permission with the session's attributes in the place of its variables. -/
def resolve (p : Permission) (session : Session) : Permission :=
  if p.tokens.isEmpty then p
  else { p with resource := PolicyVariable.substitute p.resource session, tokens := ∅ }

/-- Permissions are ordered by principal, then operation, then resource, then tokens. -/
def order : Permission → Permission → Ordering :=
  compareLex (compareOn principal) <| compareLex (compareOn operation) <|
    compareLex (compareOn resource) (compareOn (·.tokens.toList))

instance : Ord Permission := ⟨order⟩

instance : Std.TransOrd Permission :=
  inferInstanceAs (Std.TransCmp (compareLex (compareOn principal) <|
    compareLex (compareOn operation) <|
      compareLex (compareOn resource) (compareOn (·.tokens.toList))))

instance : Std.LawfulEqOrd Permission where
  eq_of_compare {a b} h := by
    have h : order a b = .eq := h
    simp only [order, compareLex_eq_eq, compareOn] at h
    obtain ⟨h1, h2, h3, h4⟩ := h
    have h1 := Std.LawfulEqOrd.eq_of_compare h1
    have h2 := Std.LawfulEqOrd.eq_of_compare h2
    have h3 := Std.LawfulEqOrd.eq_of_compare h3
    have h4 := OrderedSet.eq_of_toList_eq (Std.LawfulEqOrd.eq_of_compare h4)
    cases a
    cases b
    simp_all

/-- Whether the permission covers a requested operation on a requested resource. -/
def covers (p : Permission) (operation resource : String) : Bool :=
  Operation.covers p.operation operation && ResourcePattern.covers p.resource resource

end Permission

/-- Whether a request is well formed and names one service in both halves. -/
def isWellFormedRequest (operation resource : String) : Bool :=
  match Operation.parse? operation, Resource.parse? resource with
  | some op, some res => op.service = res.service
  | _, _ => false

/-- The permissions of each group, resolved for one session. -/
abbrev Permissions := OrderedMap String (OrderedSet Permission)

/-- Whether some permission grants the request. -/
def isAuthorized (operation resource : String) (granted : Permissions) : Bool :=
  isWellFormedRequest operation resource &&
    granted.values.any fun permissions =>
      permissions.toList.any fun p => p.covers operation resource

end DeviceAccess
