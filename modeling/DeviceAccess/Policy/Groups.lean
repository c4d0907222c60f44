import DeviceAccess.Policy.Permission
import DeviceAccess.Policy.Rule

/-!
# Device groups

A group document names groups of devices and policies.  A group has a selection rule and the
name of its policy; a policy is a collection of named statements, of which only those that
allow grant anything.  `Groups.ofDocument` checks a document and compiles it: rules are
parsed, and the policy of each group is spread into permissions, one for each pair of an
operation and a resource of an allowing statement.

`Groups.permissionsFor` collects what the groups that select a session grant to it.
-/

namespace DeviceAccess

/-- What a statement does with the requests it describes. -/
inductive Effect where
  | allow
  /-- Grants nothing and takes nothing back. -/
  | deny
  deriving DecidableEq, Repr

/-- One statement of a policy. -/
structure Statement where
  description : Option String
  effect : Effect
  operations : OrderedSet String
  resources : OrderedSet String
  deriving DecidableEq

/-- Statements by name. -/
abbrev Policy := OrderedMap String Statement

/-- A group as a document defines it. -/
structure GroupDefinition where
  rule : String
  policy : String
  deriving DecidableEq

/-- A group document. -/
structure GroupDocument where
  formatVersion : String
  definitions : OrderedMap String GroupDefinition
  policies : OrderedMap String Policy
  deriving DecidableEq

/-- The only format of group documents. -/
def GroupDocument.supportedFormat : String := "2021-03-05"

/-- A document without groups. -/
def GroupDocument.empty : GroupDocument := ⟨GroupDocument.supportedFormat, ∅, ∅⟩

/-- Why a group document cannot be used. -/
inductive GroupFault where
  | unsupportedFormat (version : String)
  | unknownVariable (resource : String)
  | missingPolicy (name : String)
  | badRule (group : String) (fault : Rule.SyntaxFault)
  deriving DecidableEq, Repr

/-- The fault of a rule that does not parse. -/
def Rule.SyntaxFault.fault (e : Rule.SyntaxFault) : Fault := .policy e.message

/-- The fault of a document that cannot be used. -/
def GroupFault.fault : GroupFault → Fault
  | unsupportedFormat version =>
    .policy ("Unsupported device groups format version " ++ version)
  | unknownVariable resource =>
    .policy ("Policy contains unknown variables in resource " ++ resource)
  | missingPolicy name => .policy ("Policies doesn't have policy named " ++ name)
  | badRule group e =>
    .policy ("Invalid selection rule for group " ++ group ++ ": " ++ e.fault.message)

/-- Reads a rule as part of the gateway. -/
def Rule.ofText (source : String) : Except Fault Rule :=
  (Rule.parse source).mapError Rule.SyntaxFault.fault

/-- A compiled group. -/
structure Group where
  name : String
  rule : Rule
  permissions : OrderedSet Permission
  deriving DecidableEq

/-- The compiled groups of a document, in the order of their names. -/
structure Groups where
  groups : List Group
  deriving DecidableEq

namespace Groups

/-- No groups. -/
def empty : Groups := ⟨[]⟩

instance : Inhabited Groups := ⟨empty⟩

/-- The permissions that a policy grants to a group. -/
def expand (group : String) (policy : Policy) : OrderedSet Permission :=
  OrderedSet.ofList <|
    (policy.values.filter fun statement => statement.effect = .allow).flatMap fun statement =>
      (statement.operations.toList.filter (· ≠ "")).flatMap fun operation =>
        (statement.resources.toList.filter (· ≠ "")).map fun resource =>
          Permission.ofPolicy group operation resource

/-- The first resource of a document that uses an unknown variable. -/
def unknownVariable? (document : GroupDocument) : Option String :=
  (document.policies.values.flatMap fun policy =>
    policy.values.flatMap fun statement => statement.resources.toList).find? fun resource =>
      !PolicyVariable.isValid resource

/-- Compiles one group of a document. -/
def compile (document : GroupDocument) (name : String) (definition : GroupDefinition) :
    Except GroupFault Group := do
  match document.policies.get? definition.policy with
  | none => throw (.missingPolicy definition.policy)
  | some policy =>
    match Rule.parse definition.rule with
    | .error e => throw (.badRule name e)
    | .ok rule => return ⟨name, rule, expand name policy⟩

/-- Checks a document and compiles its groups. -/
def ofDocument (document : GroupDocument) : Except GroupFault Groups := do
  if document.formatVersion ≠ GroupDocument.supportedFormat then
    throw (.unsupportedFormat document.formatVersion)
  match unknownVariable? document with
  | some resource => throw (.unknownVariable resource)
  | none =>
    let groups ← document.definitions.entries.mapM fun e => compile document e.1 e.2
    return ⟨groups⟩

/-- Whether there is no group. -/
def isEmpty (c : Groups) : Bool := c.groups.isEmpty

/-- The groups that select a session. -/
def applicable (c : Groups) (session : Session) : List Group :=
  c.groups.filter fun g => g.rule.selects session

/-- The permissions of a group, by its name. -/
def permissionsOf? (c : Groups) (name : String) : Option (OrderedSet Permission) :=
  (c.groups.find? fun g => g.name = name).map (·.permissions)

/-- What the groups that select a session grant to it, with variables resolved. -/
def permissionsFor (c : Groups) (session : Session) : Permissions :=
  OrderedMap.ofList <| (c.applicable session).map fun g =>
    (g.name, OrderedSet.ofList (g.permissions.toList.map fun p => p.resolve session))

/-- Whether a session may do what a request asks. -/
def allows (c : Groups) (session : Session) (operation resource : String) : Bool :=
  isAuthorized operation resource (c.permissionsFor session)

/-- The groups in force after a document was applied: a document that cannot be used leaves
the groups as they were. -/
def apply (c : Groups) (document : GroupDocument) : Groups × Except Fault Unit :=
  match ofDocument document with
  | .ok groups => (groups, .ok ())
  | .error e => (c, .error e.fault)

end Groups

end DeviceAccess
