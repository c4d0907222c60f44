import DeviceAccess.Config.Coding
import DeviceAccess.Proofs.Document
import DeviceAccess.Proofs.Ordered

/-!
# Settings come back as they were written

Each section that is written is read back as it was (`Settings.read_write`), with all that it is made of:
maps and sets of any size, absent values, and statements with and without a description.

Four keys of a group document may be written in camel case.  Settings that differ in the spelling of
these keys, each where it stands for a field (`Settings.Respelled`), are read alike, also if they cannot
be read (`Settings.read_write_respelled`).
-/

namespace DeviceAccess

open Document

/-! ### Values -/

@[simp] theorem asUInt64_write (n : UInt64) : asUInt64 (writeUInt64 n) = .ok n := by
  show (if n.toNat < UInt64.size then Except.ok (UInt64.ofNat n.toNat) else _) = Except.ok n
  rw [if_pos n.toNat_lt, UInt64.ofNat_toNat]

@[simp] theorem asBool_bool (b : Bool) : asBool (bool b) = .ok b := rfl

@[simp] theorem asText_text (s : String) : asText (text s) = .ok s := rfl

@[simp] theorem asOption_text (s : String) : asOption asText (text s) = .ok (some s) := rfl

@[simp] theorem asOption_writeOption (o : Option String) :
    asOption asText (writeOption o) = .ok o := by
  cases o with
  | none => rfl
  | some s => rfl

@[simp] theorem asList_writeTexts (l : List String) : asList asText (writeTexts l) = .ok l :=
  asList_map asText_text l

@[simp] theorem readTextSet_writeTexts (s : OrderedSet String) :
    readTextSet (writeTexts s.toList) = .ok s := by
  unfold readTextSet
  rw [asList_writeTexts]
  exact congrArg Except.ok s.ofList_toList

theorem readMap_writeMap {α : Type} {read : Document → Except ShapeFault α} {write : α → Document}
    (h : ∀ a, read (write a) = .ok a) (m : OrderedMap String α) :
    readMap read (writeMap write m) = .ok m := by
  unfold readMap writeMap
  rw [asTable_map h]
  exact congrArg Except.ok m.ofList_entries

@[simp] theorem KeyType.read_name (k : KeyType) : KeyType.read (text k.name) = .ok k := by
  cases k with
  | rsa2048 => rfl
  | ecdsaP256 => rfl

@[simp] theorem CertificateKind.read_write (k : CertificateKind) :
    CertificateKind.read k.write = .ok k := by
  cases k with
  | server => rfl
  | client => rfl

@[simp] theorem Effect.read_write (e : Effect) : Effect.read e.write = .ok e := by
  cases e with
  | allow => rfl
  | deny => rfl

@[simp] theorem Path.read_write (p : Path) : Path.read p.write = .ok p := rfl

/-! ### Sections -/

@[simp] theorem SessionSettings.read_write (s : SessionSettings) :
    SessionSettings.read s.write = .ok s := by
  unfold SessionSettings.read SessionSettings.write
  rw [record_table (by simp [SessionSettings.fields, fieldOf?, Field.named]) (by simp)]
  simp [ok_bind, pure_eq_ok]

@[simp] theorem AuthoritySettings.read_write (s : AuthoritySettings) :
    AuthoritySettings.read s.write = .ok s := by
  unfold AuthoritySettings.read AuthoritySettings.write
  rw [record_table (by simp [AuthoritySettings.fields, fieldOf?, Field.named]) (by simp)]
  simp [ok_bind, pure_eq_ok]

@[simp] theorem LeafSettings.read_write (s : LeafSettings) : LeafSettings.read s.write = .ok s := by
  unfold LeafSettings.read LeafSettings.write
  rw [record_table (by simp [LeafSettings.fields, fieldOf?, Field.named]) (by simp)]
  simp [ok_bind, pure_eq_ok]

@[simp] theorem ConnectivitySettings.read_write (s : ConnectivitySettings) :
    ConnectivitySettings.read s.write = .ok s := by
  unfold ConnectivitySettings.read ConnectivitySettings.write
  rw [record_table (by simp [ConnectivitySettings.fields, fieldOf?, Field.named]) (by simp)]
  simp [ok_bind, pure_eq_ok]

@[simp] theorem RegisteredCertificate.read_write (r : RegisteredCertificate) :
    RegisteredCertificate.read r.write = .ok r := by
  unfold RegisteredCertificate.read RegisteredCertificate.write
  rw [record_table (by simp [RegisteredCertificate.fields, fieldOf?, Field.named]) (by simp)]
  simp [ok_bind, pure_eq_ok]

@[simp] theorem RegistrySettings.read_write (s : RegistrySettings) :
    RegistrySettings.read s.write = .ok s := by
  unfold RegistrySettings.read RegistrySettings.write
  rw [record_table (by simp [RegistrySettings.fields, fieldOf?, Field.named]) (by simp)]
  simp [ok_bind, pure_eq_ok, asList_map RegisteredCertificate.read_write]

@[simp] theorem CertificateOutput.read_write (o : CertificateOutput) :
    CertificateOutput.read o.write = .ok o := by
  unfold CertificateOutput.read CertificateOutput.write
  rw [record_table (by simp [CertificateOutput.fields, fieldOf?, Field.named]) (by simp)]
  simp [ok_bind, pure_eq_ok]

/-! ### Group documents -/

@[simp] theorem Statement.read_write (s : Statement) : Statement.read s.write = .ok s := by
  obtain ⟨description, effect, operations, resources⟩ := s
  unfold Statement.read Statement.write
  cases description with
  | none =>
      simp only [List.nil_append]
      rw [record_table (by simp [Statement.fields, fieldOf?, Field.named]) (by simp)]
      simp [ok_bind, pure_eq_ok]
  | some note =>
      simp only [List.cons_append, List.nil_append]
      rw [record_table (by simp [Statement.fields, fieldOf?, Field.named]) (by simp)]
      simp [ok_bind, pure_eq_ok]

@[simp] theorem GroupDefinition.read_write (g : GroupDefinition) :
    GroupDefinition.read g.write = .ok g := by
  unfold GroupDefinition.read GroupDefinition.write
  rw [record_table (by simp [GroupDefinition.fields, fieldOf?]) (by simp)]
  simp [ok_bind, pure_eq_ok]

@[simp] theorem GroupDocument.read_write (g : GroupDocument) : GroupDocument.read g.write = .ok g := by
  unfold GroupDocument.read GroupDocument.write
  rw [record_table (by simp [GroupDocument.fields, fieldOf?, Field.named]) (by simp)]
  simp [ok_bind, pure_eq_ok, readMap_writeMap GroupDefinition.read_write,
    readMap_writeMap (readMap_writeMap Statement.read_write)]

/-- **Settings are read as they were written.** -/
theorem Settings.read_write (s : Settings) : Settings.read s.write = .ok s := by
  unfold Settings.read Settings.write
  rw [record_table (by simp [Settings.fields, fieldOf?, Field.named]) (by simp)]
  simp [ok_bind, pure_eq_ok, asList_map CertificateOutput.read_write]

/-! ### Spellings -/

/-- The keys that may be written in camel case, with the names of their fields. -/
def camelCaseKeys : List (String × String) := [
  ("formatVersion", "format_version"), ("selectionRule", "selection_rule"),
  ("policyName", "policy_name"), ("statementDescription", "statement_description")]

/-- A key with one of the four keys in camel case replaced. -/
def snakeCase (key : String) : String :=
  ((camelCaseKeys.find? fun e => e.1 = key).map (·.2)).getD key

/-- Fields go by their names, and by the keys in camel case for their names. -/
theorem knowsSpellings_snakeCase {fields : List Field}
    (h : ∀ f ∈ fields, snakeCase f.name = f.name ∧
      f.others = (camelCaseKeys.filter fun e => e.2 = f.name).map (·.1)) :
    KnowsSpellings snakeCase fields := by
  intro f hf k
  obtain ⟨hname, hothers⟩ := h f hf
  have hmem : k ∈ f.others ↔ (k, f.name) ∈ camelCaseKeys := by simp [hothers]
  rw [hmem, ← OrderedMap.find?_eq_some_iff_mem (by decide)]
  cases hfind : (camelCaseKeys.find? fun e => e.1 = k).map (·.2) with
  | none =>
      have hk : snakeCase k = k := by rw [snakeCase, hfind]; rfl
      simp [hk]
  | some n =>
      have hk : snakeCase k = n := by rw [snakeCase, hfind]; rfl
      rw [hk, Option.some.injEq, @eq_comm _ n]
      refine or_iff_right_of_imp ?_
      rintro rfl
      exact hname.symm.trans hk

/-- A statement with its description under another key. -/
def Statement.Respelled : Document → Document → Prop := Alike snakeCase fun _ => Eq

/-- A group with its selection rule or the name of its policy under another key. -/
def GroupDefinition.Respelled : Document → Document → Prop := Alike snakeCase fun _ => Eq

/-- A group document with its format version under another key, and with other spellings in its groups
and statements. -/
def GroupDocument.Respelled : Document → Document → Prop :=
  Alike snakeCase fun key =>
    if key = "definitions" then Alike id fun _ => GroupDefinition.Respelled
    else if key = "policies" then Alike id fun _ => Alike id fun _ => Statement.Respelled
    else Eq

/-- Settings with other spellings in their group document. -/
def Settings.Respelled : Document → Document → Prop :=
  Alike snakeCase fun key => if key = "device_groups" then GroupDocument.Respelled else Eq

variable {d d' : Document}

/-- A map is read alike from tables with the same keys. -/
theorem readMap_congr {α : Type} {read : Document → Except ShapeFault α}
    {alike : Document → Document → Prop} (hread : ∀ d d', alike d d' → read d = read d')
    (h : Alike id (fun _ => alike) d d') : readMap read d = readMap read d' := by
  unfold readMap
  rw [asTable_congr h hread]

theorem Statement.read_congr (h : Statement.Respelled d d') : Statement.read d = Statement.read d' := by
  refine record_alike (knowsSpellings_snakeCase (by decide)) h fun given given' hgiven => ?_
  rw [hgiven.eq]

theorem GroupDefinition.read_congr (h : GroupDefinition.Respelled d d') :
    GroupDefinition.read d = GroupDefinition.read d' := by
  refine record_alike (knowsSpellings_snakeCase (by decide)) h fun given given' hgiven => ?_
  rw [hgiven.eq]

theorem GroupDocument.read_congr (h : GroupDocument.Respelled d d') :
    GroupDocument.read d = GroupDocument.read d' := by
  refine record_alike (knowsSpellings_snakeCase (by decide)) h fun given given' hgiven => ?_
  have hversion : fieldOr given "format_version" supportedFormat asText =
      fieldOr given' "format_version" supportedFormat asText := fieldOr_congr_of_eq hgiven rfl _
  have hdefinitions : fieldOr given "definitions" ∅ (readMap GroupDefinition.read) =
      fieldOr given' "definitions" ∅ (readMap GroupDefinition.read) := by
    refine fieldOr_congr hgiven (fun d d' hd => ?_) _
    exact readMap_congr (fun _ _ => GroupDefinition.read_congr) hd
  have hpolicies : fieldOr given "policies" ∅ (readMap (readMap Statement.read)) =
      fieldOr given' "policies" ∅ (readMap (readMap Statement.read)) := by
    refine fieldOr_congr hgiven (fun d d' hd => ?_) _
    exact readMap_congr (fun _ _ => readMap_congr fun _ _ => Statement.read_congr) hd
  rw [hversion, hdefinitions, hpolicies]

theorem Settings.read_congr (h : Settings.Respelled d d') : Settings.read d = Settings.read d' := by
  refine record_alike (knowsSpellings_snakeCase (by decide)) h fun given given' hgiven => ?_
  have hsame {α : Type} {name : String} (hname : name ≠ "device_groups") (fallback : α)
      (read : Document → Except ShapeFault α) :
      fieldOr given name fallback read = fieldOr given' name fallback read :=
    fieldOr_congr_of_eq hgiven (if_neg hname) fallback
  have hgroups : fieldOr given "device_groups" .empty GroupDocument.read =
      fieldOr given' "device_groups" .empty GroupDocument.read := by
    refine fieldOr_congr hgiven (fun d d' hd => ?_) _
    exact GroupDocument.read_congr hd
  simp [hsame, hgroups]

/-- **Settings are read as they were written**, all of them.  In no document does it matter how the keys
`format_version`, `selection_rule`, `policy_name` and `statement_description` are spelled, each for
itself. -/
theorem Settings.read_write_respelled :
    (∀ s : Settings, Settings.read s.write = .ok s) ∧
      ∀ d d', Settings.Respelled d d' → Settings.read d = Settings.read d' :=
  ⟨Settings.read_write, fun _ _ => Settings.read_congr⟩

/-- Settings with a group whose policy has a statement with a description and one without. -/
def sensorSettings : Settings :=
  { Settings.standard with
    thingName := some "core"
    groups := {
      formatVersion := "2021-03-05"
      definitions := ⟨[("sensors", ⟨"thingName: sensor-*", "telemetry"⟩)], by decide⟩
      policies := ⟨[("telemetry", ⟨[
        ("1", ⟨some "own topics", .allow, ⟨["mqtt:publish"], by decide⟩,
          ⟨["mqtt:topic:up"], by decide⟩⟩),
        ("2", ⟨none, .deny, ⟨["mqtt:*"], by decide⟩, ∅⟩)], by decide⟩)], by decide⟩ } }

/-- The same settings, with some of the keys of the group in camel case. -/
def sensorDocument : Document :=
  table [("env_files", list []), ("work_dir", text "./edge-trust-work"), ("thing_name", text "core"),
    ("session", SessionSettings.standard.write),
    ("certificate_authority", AuthoritySettings.standard.write),
    ("certificates", LeafSettings.standard.write),
    ("device_groups", table [("formatVersion", text "2021-03-05"),
      ("definitions", table [("sensors", table [
        ("selection_rule", text "thingName: sensor-*"), ("policyName", text "telemetry")])]),
      ("policies", table [("telemetry", table [
        ("1", table [("statementDescription", text "own topics"), ("effect", text "ALLOW"),
          ("operations", list [text "mqtt:publish"]), ("resources", list [text "mqtt:topic:up"])]),
        ("2", table [("effect", text "DENY"), ("operations", list [text "mqtt:*"]),
          ("resources", list [])])])])]),
    ("connectivity", table [("host_addresses", list [])]),
    ("registry", table [("certificates", list [])]), ("certificate_outputs", list [])]

theorem respelled_sensorDocument : Settings.Respelled sensorSettings.write sensorDocument := by
  refine .tables (.cons ⟨rfl, rfl⟩ (.cons ⟨rfl, rfl⟩ (.cons ⟨rfl, rfl⟩ (.cons ⟨rfl, rfl⟩
    (.cons ⟨rfl, rfl⟩ (.cons ⟨rfl, rfl⟩ (.cons ⟨rfl, ?_⟩ (.cons ⟨rfl, rfl⟩ (.cons ⟨rfl, rfl⟩
      (.cons ⟨rfl, rfl⟩ .nil))))))))))
  refine .tables (.cons ⟨rfl, rfl⟩ (.cons ⟨rfl, ?definitions⟩ (.cons ⟨rfl, ?policies⟩ .nil)))
  case definitions =>
    refine .tables (.cons ⟨rfl, ?_⟩ .nil)
    exact .tables (.cons ⟨rfl, rfl⟩ (.cons ⟨rfl, rfl⟩ .nil))
  case policies =>
    refine .tables (.cons ⟨rfl, .tables (.cons ⟨rfl, ?_⟩ (.cons ⟨rfl, .same _⟩ .nil))⟩ .nil)
    exact .tables (.cons ⟨rfl, rfl⟩ (.cons ⟨rfl, rfl⟩ (.cons ⟨rfl, rfl⟩ (.cons ⟨rfl, rfl⟩ .nil))))

/-- Written in snake case or partly in camel case, the same settings are read. -/
theorem Settings.read_write_respelled_sensors :
    Settings.read sensorSettings.write = .ok sensorSettings ∧
      Settings.Respelled sensorSettings.write sensorDocument ∧
      Settings.read sensorDocument = .ok sensorSettings := by
  obtain ⟨hwrite, hspelling⟩ := Settings.read_write_respelled
  exact ⟨hwrite sensorSettings, respelled_sensorDocument,
    (hspelling _ _ respelled_sensorDocument).symm.trans (hwrite sensorSettings)⟩

end DeviceAccess
