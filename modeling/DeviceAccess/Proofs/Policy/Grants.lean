import Mathlib.Data.List.Induction
import DeviceAccess.Policy.Groups
import DeviceAccess.Proofs.Attempt
import DeviceAccess.Proofs.Ordered
import DeviceAccess.Proofs.Policy.Variable

/-!
# What a group document grants

`GroupDocument.Grants` reads a decision off the document as it is written: some group selects the
session, and some allowing statement of its policy covers the request once the session's name
stands in the place of the variables.  The gateway decides on compiled groups instead, whose
policies were spread into sets of permissions.  `Groups.allows_iff_of_ofDocument` says that on a
document that compiles the two agree, `Groups.allows_applyAll_iff` that after any sequence of
documents the decisions are those of the last one that was accepted.
-/

namespace DeviceAccess

/-! ### The decision on the document -/

/-- A request is well formed and names one service in both halves. -/
def WellFormedRequest (operation resource : String) : Prop :=
  ∃ op res, Operation.parse? operation = some op ∧ Resource.parse? resource = some res ∧
    op.service = res.service

/-- An allowing statement covers the request by an operation and a resource, neither empty. -/
def Statement.Grants (statement : Statement) (session : Session) (operation resource : String) :
    Prop :=
  statement.effect = .allow ∧
    (∃ o ∈ statement.operations, o ≠ "" ∧ Operation.covers o operation = true) ∧
    ∃ r ∈ statement.resources, r ≠ "" ∧
      ResourcePattern.covers (PolicyVariable.substitute r session) resource = true

/-- Some statement of the policy grants the request. -/
def Policy.Grants (policy : Policy) (session : Session) (operation resource : String) : Prop :=
  ∃ key statement, policy.get? key = some statement ∧ statement.Grants session operation resource

/-- The rule of the group can be read and selects the session. -/
def GroupDefinition.Selects (definition : GroupDefinition) (session : Session) : Prop :=
  ∃ rule, Rule.parse definition.rule = .ok rule ∧ rule.selects session = true

/-- Some group selects the session and its policy grants the request. -/
def GroupDocument.Grants (document : GroupDocument) (session : Session)
    (operation resource : String) : Prop :=
  ∃ name definition, document.definitions.get? name = some definition ∧
    definition.Selects session ∧
    ∃ policy, document.policies.get? definition.policy = some policy ∧
      policy.Grants session operation resource

theorem isWellFormedRequest_iff {operation resource : String} :
    isWellFormedRequest operation resource = true ↔ WellFormedRequest operation resource := by
  unfold isWellFormedRequest WellFormedRequest
  cases hop : Operation.parse? operation with
  | none => simp
  | some op =>
      cases hres : Resource.parse? resource with
      | none => simp
      | some res => simp

namespace Groups

/-! ### Spreading a policy -/

theorem mem_expand {group : String} {policy : Policy} {p : Permission} :
    p ∈ expand group policy ↔ ∃ key statement, policy.get? key = some statement ∧
      statement.effect = .allow ∧ ∃ o ∈ statement.operations, o ≠ "" ∧
        ∃ r ∈ statement.resources, r ≠ "" ∧ p = Permission.ofPolicy group o r := by
  unfold expand
  rw [OrderedSet.mem_ofList]
  simp only [List.mem_flatMap, List.mem_filter, List.mem_map, OrderedMap.mem_values,
    decide_eq_true_eq, OrderedMap.get?_eq_some_iff]
  constructor
  · rintro ⟨statement, ⟨⟨key, hkey⟩, heff⟩, o, ⟨ho, hne⟩, r, ⟨hr, hrne⟩, rfl⟩
    exact ⟨key, statement, hkey, heff, o, ho, hne, r, hr, hrne, rfl⟩
  · rintro ⟨key, statement, hkey, heff, o, ho, hne, r, hr, hrne, rfl⟩
    exact ⟨statement, ⟨⟨key, hkey⟩, heff⟩, o, ⟨ho, hne⟩, r, ⟨hr, hrne⟩, rfl⟩

theorem covers_resolve_ofPolicy {group o r operation resource : String} {session : Session} :
    ((Permission.ofPolicy group o r).resolve session).covers operation resource = true ↔
      Operation.covers o operation = true ∧
        ResourcePattern.covers (PolicyVariable.substitute r session) resource = true := by
  rw [Permission.covers, Bool.and_eq_true, Permission.operation_resolve,
    Permission.resource_resolve_ofPolicy]
  rfl

/-- The permissions of a policy cover what its statements grant. -/
theorem exists_mem_expand_covers_iff {group : String} {policy : Policy} {session : Session}
    {operation resource : String} :
    (∃ p ∈ expand group policy, (p.resolve session).covers operation resource = true) ↔
      policy.Grants session operation resource := by
  constructor
  · rintro ⟨p, hp, hcovers⟩
    obtain ⟨key, statement, hkey, heff, o, ho, hne, r, hr, hrne, rfl⟩ := mem_expand.1 hp
    obtain ⟨hop, hres⟩ := covers_resolve_ofPolicy.1 hcovers
    exact ⟨key, statement, hkey, heff, ⟨o, ho, hne, hop⟩, r, hr, hrne, hres⟩
  · rintro ⟨key, statement, hkey, heff, ⟨o, ho, hne, hop⟩, r, hr, hrne, hres⟩
    exact ⟨_, mem_expand.2 ⟨key, statement, hkey, heff, o, ho, hne, r, hr, hrne, rfl⟩,
      covers_resolve_ofPolicy.2 ⟨hop, hres⟩⟩

/-! ### Compiling a document -/

theorem compile_eq_ok_iff {document : GroupDocument} {name : String}
    {definition : GroupDefinition} {g : Group} :
    compile document name definition = .ok g ↔
      ∃ policy rule, document.policies.get? definition.policy = some policy ∧
        Rule.parse definition.rule = .ok rule ∧ g = ⟨name, rule, expand name policy⟩ := by
  unfold compile
  cases hp : document.policies.get? definition.policy with
  | none => simp [throw, throwThe, MonadExceptOf.throw]
  | some policy =>
      cases hr : Rule.parse definition.rule with
      | error e => simp [throw, throwThe, MonadExceptOf.throw]
      | ok rule => simp [pure, Except.pure, eq_comm]

theorem ofDocument_eq_ok_iff {document : GroupDocument} {c : Groups} :
    ofDocument document = .ok c ↔ document.formatVersion = GroupDocument.supportedFormat ∧
      unknownVariable? document = none ∧
      List.Forall₂ (fun e g => compile document e.1 e.2 = .ok g) document.definitions.entries
        c.groups := by
  unfold ofDocument
  by_cases hf : document.formatVersion = GroupDocument.supportedFormat
  · cases hu : unknownVariable? document with
    | some r => simp [hf, throw, throwThe, MonadExceptOf.throw]
    | none =>
        simp only [hf, ne_eq, not_true_eq_false, if_false, true_and, bind_eq_ok_iff, ← mapM_eq_ok_iff]
        constructor
        · rintro ⟨groups, hgroups, hc⟩
          rw [← Except.ok.inj hc]
          exact hgroups
        · intro h
          exact ⟨_, h, rfl⟩
  · simp [hf, bind, Except.bind, throw, throwThe, MonadExceptOf.throw]

/-- Compiled groups have the names of the document, so no two have the same. -/
theorem names_of_ofDocument {document : GroupDocument} {c : Groups}
    (h : ofDocument document = .ok c) : c.groups.map (·.name) = document.definitions.keys := by
  have hall := (ofDocument_eq_ok_iff.1 h).2.2
  unfold OrderedMap.keys
  generalize document.definitions.entries = entries, c.groups = groups at hall ⊢
  induction hall with
  | nil => rfl
  | cons hg _ ih =>
      obtain ⟨policy, rule, _, _, rfl⟩ := compile_eq_ok_iff.1 hg
      rw [List.map_cons, List.map_cons, ih]

theorem mem_groups_iff {document : GroupDocument} {c : Groups} (h : ofDocument document = .ok c)
    {g : Group} : g ∈ c.groups ↔ ∃ name definition,
      document.definitions.get? name = some definition ∧
        compile document name definition = .ok g := by
  have hall := (ofDocument_eq_ok_iff.1 h).2.2
  simp only [OrderedMap.get?_eq_some_iff]
  generalize document.definitions.entries = entries, c.groups = groups at hall ⊢
  induction hall with
  | nil => simp
  | @cons e g' es gs hg _ ih =>
      constructor
      · intro hmem
        rcases List.mem_cons.1 hmem with rfl | hmem
        · exact ⟨e.1, e.2, List.mem_cons_self, hg⟩
        · obtain ⟨name, definition, hdef, hcompile⟩ := ih.1 hmem
          exact ⟨name, definition, List.mem_cons_of_mem _ hdef, hcompile⟩
      · rintro ⟨name, definition, hdef, hcompile⟩
        rcases List.mem_cons.1 hdef with rfl | hdef
        · rw [Except.ok.inj (hcompile.symm.trans hg)]
          exact List.mem_cons_self
        · exact List.mem_cons_of_mem _ (ih.2 ⟨name, definition, hdef, hcompile⟩)

/-! ### The decision of compiled groups -/

theorem mem_values_permissionsFor {c : Groups} (hnames : (c.groups.map (·.name)).Nodup)
    {session : Session} {granted : OrderedSet Permission} :
    granted ∈ (c.permissionsFor session).values ↔ ∃ g ∈ c.groups,
      g.rule.selects session = true ∧
        granted = OrderedSet.ofList (g.permissions.toList.map fun p => p.resolve session) := by
  have hkeys : (((c.applicable session).map fun g => (g.name, OrderedSet.ofList
      (g.permissions.toList.map fun p => p.resolve session))).map (·.1)).Nodup := by
    rw [List.map_map]
    exact hnames.sublist (List.filter_sublist.map _)
  unfold permissionsFor
  simp only [OrderedMap.mem_values, OrderedMap.mem_entries_ofList hkeys]
  simp only [List.mem_map, applicable, List.mem_filter, Prod.mk.injEq]
  constructor
  · rintro ⟨name, g, ⟨hg, hsel⟩, _, rfl⟩
    exact ⟨g, hg, hsel, rfl⟩
  · rintro ⟨g, hg, hsel, rfl⟩
    exact ⟨g.name, g, ⟨hg, hsel⟩, rfl, rfl⟩

theorem allows_iff_of_nodup {c : Groups} (hnames : (c.groups.map (·.name)).Nodup)
    {session : Session} {operation resource : String} :
    c.allows session operation resource = true ↔ WellFormedRequest operation resource ∧
      ∃ g ∈ c.groups, g.rule.selects session = true ∧
        ∃ p ∈ g.permissions, (p.resolve session).covers operation resource = true := by
  unfold allows isAuthorized
  rw [Bool.and_eq_true, isWellFormedRequest_iff, List.any_eq_true]
  refine and_congr_right fun _ => ?_
  simp only [List.any_eq_true, mem_values_permissionsFor hnames]
  constructor
  · rintro ⟨_, ⟨g, hg, hsel, rfl⟩, q, hq, hcovers⟩
    obtain ⟨p, hp, rfl⟩ := List.mem_map.1 (OrderedSet.mem_ofList.1 hq)
    exact ⟨g, hg, hsel, p, hp, hcovers⟩
  · rintro ⟨g, hg, hsel, p, hp, hcovers⟩
    exact ⟨_, ⟨g, hg, hsel, rfl⟩, _, OrderedSet.mem_ofList.2 (List.mem_map.2 ⟨p, hp, rfl⟩),
      hcovers⟩

/-- **Compilation keeps the decision.**  The groups compiled from a document allow exactly the
well-formed requests that the document grants. -/
theorem allows_iff_of_ofDocument {document : GroupDocument} {c : Groups}
    (h : ofDocument document = .ok c) {session : Session} {operation resource : String} :
    c.allows session operation resource = true ↔ WellFormedRequest operation resource ∧
      document.Grants session operation resource := by
  have hnames : (c.groups.map (·.name)).Nodup := by
    rw [names_of_ofDocument h]
    exact document.definitions.increasing.nodup
  rw [allows_iff_of_nodup hnames]
  refine and_congr_right fun _ => ?_
  constructor
  · rintro ⟨g, hg, hsel, hcovers⟩
    obtain ⟨name, definition, hdef, hcompile⟩ := (mem_groups_iff h).1 hg
    obtain ⟨policy, rule, hpolicy, hrule, rfl⟩ := compile_eq_ok_iff.1 hcompile
    exact ⟨name, definition, hdef, ⟨rule, hrule, hsel⟩, policy, hpolicy,
      exists_mem_expand_covers_iff.1 hcovers⟩
  · rintro ⟨name, definition, hdef, ⟨rule, hrule, hsel⟩, policy, hpolicy, hgrants⟩
    have hcompile : compile document name definition = .ok ⟨name, rule, expand name policy⟩ :=
      compile_eq_ok_iff.2 ⟨policy, rule, hpolicy, hrule, rfl⟩
    exact ⟨_, (mem_groups_iff h).2 ⟨name, definition, hdef, hcompile⟩, hsel,
      exists_mem_expand_covers_iff.2 hgrants⟩

/-! ### Runs of documents -/

/-- The groups in force after documents were applied one after the other, at first none. -/
def applyAll (documents : List GroupDocument) : Groups :=
  documents.foldl (fun c document => (c.apply document).1) empty

end Groups

/-- Whether applying the document succeeds. -/
def GroupDocument.isAccepted (document : GroupDocument) : Bool :=
  (Groups.empty.apply document).2.isOk

/-- The last document of a run that was accepted, or the document without groups. -/
def GroupDocument.lastAccepted (documents : List GroupDocument) : GroupDocument :=
  ((documents.filter isAccepted).getLast?).getD .empty

namespace Groups

theorem ofDocument_empty : ofDocument .empty = .ok empty := rfl

/-- A document is accepted or rejected for its own sake, whatever groups are in force. -/
theorem apply_of_isAccepted {document : GroupDocument} (h : document.isAccepted = true)
    (c : Groups) : (c.apply document).2 = .ok () ∧
      ofDocument document = .ok (c.apply document).1 := by
  unfold GroupDocument.isAccepted apply at h
  unfold apply
  cases hd : ofDocument document with
  | error e =>
      rw [hd] at h
      cases h
  | ok groups => exact ⟨rfl, rfl⟩

theorem apply_of_not_isAccepted {document : GroupDocument} (h : document.isAccepted = false)
    (c : Groups) : (c.apply document).2.isOk = false ∧ (c.apply document).1 = c := by
  unfold GroupDocument.isAccepted apply at h
  unfold apply
  cases hd : ofDocument document with
  | error e => exact ⟨rfl, rfl⟩
  | ok groups =>
      rw [hd] at h
      cases h

/-- The groups in force are always those compiled from the last accepted document. -/
theorem ofDocument_lastAccepted (documents : List GroupDocument) :
    ofDocument (.lastAccepted documents) = .ok (applyAll documents) := by
  induction documents using List.reverseRecOn with
  | nil => exact ofDocument_empty
  | append_singleton documents document ih =>
      unfold applyAll at ih ⊢
      rw [List.foldl_append, List.foldl_cons, List.foldl_nil]
      unfold GroupDocument.lastAccepted at ih ⊢
      rw [List.filter_append]
      cases h : document.isAccepted with
      | false =>
          rw [List.filter_cons_of_neg (by simp [h]), List.filter_nil, List.append_nil,
            (apply_of_not_isAccepted h _).2]
          exact ih
      | true =>
          rw [List.filter_cons_of_pos h, List.filter_nil, List.getLast?_concat]
          exact (apply_of_isAccepted h _).2

/-- **Decisions follow the last accepted document.**  After any sequence of documents a request
is allowed exactly if it is well formed and the last accepted document grants it, and a document
that is rejected changes no decision. -/
theorem allows_applyAll_iff (documents : List GroupDocument) :
    (∀ (session : Session) (operation resource : String),
      (applyAll documents).allows session operation resource = true ↔
        WellFormedRequest operation resource ∧
          (GroupDocument.lastAccepted documents).Grants session operation resource) ∧
    ∀ document : GroupDocument, ((applyAll documents).apply document).2 ≠ .ok () →
      ∀ (session : Session) (operation resource : String),
        ((applyAll documents).apply document).1.allows session operation resource =
          (applyAll documents).allows session operation resource := by
  refine ⟨fun session operation resource =>
    allows_iff_of_ofDocument (ofDocument_lastAccepted documents), ?_⟩
  intro document hrejected session operation resource
  cases h : document.isAccepted with
  | true => exact absurd (apply_of_isAccepted h _).1 hrejected
  | false => rw [(apply_of_not_isAccepted h _).2]

/-- Sensors may publish under their own name. -/
def ownTelemetry : GroupDocument where
  formatVersion := GroupDocument.supportedFormat
  definitions := OrderedMap.ofList [("sensors", ⟨"thingName: sensor-*", "telemetry"⟩)]
  policies := OrderedMap.ofList [("telemetry", OrderedMap.ofList [("publish",
    ⟨none, .allow, OrderedSet.ofList ["mqtt:publish", ""],
      OrderedSet.ofList ["mqtt:topic:telemetry/$\x7biot:Connection.Thing.ThingName\x7d/#"]⟩)])]

/-- A device with the thing `sensor-7`. -/
def sensorSession : Session :=
  (Session.ofCertificate ⟨"hash", "certificate", true⟩).withThing ⟨"sensor-7", by decide⟩

/-- A document of another format is rejected, and the sensor goes on to publish. -/
theorem allows_after_rejected_document :
    ((applyAll [ownTelemetry]).apply ⟨"2020-01-01", ∅, ∅⟩).2 ≠ .ok () ∧
      ((applyAll [ownTelemetry]).apply ⟨"2020-01-01", ∅, ∅⟩).1.allows sensorSession
        "mqtt:publish" "mqtt:topic:telemetry/sensor-7/temp" = true := by
  have hrejected : ((applyAll [ownTelemetry]).apply ⟨"2020-01-01", ∅, ∅⟩).2 ≠ .ok () := nofun
  refine ⟨hrejected, ?_⟩
  rw [(allows_applyAll_iff [ownTelemetry]).2 _ hrejected]
  decide +kernel

end Groups
end DeviceAccess
