import Mathlib.Data.List.Find
import DeviceAccess.Document
import DeviceAccess.Proofs.Attempt

/-!
# Reading documents

A list that was written item by item is read item by item (`Document.asList_map`), a table with free
keys entry by entry (`Document.asTable_map`), and a table whose keys are the names of fields is the
record that it looks like (`Document.record_table`).

Two tables are alike if their keys are the same up to a spelling and the values of each key are alike
(`Document.Alike`).  A record is read alike from both, as long as its fields know all spellings of their
names and no others (`Document.record_alike`).
-/

namespace DeviceAccess

namespace Document

variable {α : Type} {read : Document → Except ShapeFault α} {write : α → Document}

/-! ### What was written -/

theorem asList_map (h : ∀ a, read (write a) = .ok a) (as : List α) :
    asList read (list (as.map write)) = .ok as := by
  show (as.map write).mapM read = .ok as
  rw [mapM_eq_ok_iff, List.forall₂_map_left_iff, List.forall₂_same]
  exact fun a _ => h a

theorem asTable_map (h : ∀ a, read (write a) = .ok a) (entries : List (String × α)) :
    asTable read (table (entries.map fun e => (e.1, write e.2))) = .ok entries := by
  show (entries.map fun e => (e.1, write e.2)).mapM
    (fun e => (read e.2).map fun v => (e.1, v)) = .ok entries
  rw [mapM_eq_ok_iff, List.forall₂_map_left_iff, List.forall₂_same]
  intro e _
  rw [h]
  rfl

theorem firstRepeated?_eq_none_iff {names : List String} :
    firstRepeated? names = none ↔ names.Nodup := by
  induction names with
  | nil => simp [firstRepeated?]
  | cons n ns ih =>
      rw [firstRepeated?, List.nodup_cons, ← ih]
      by_cases hn : n ∈ ns
      · simp [hn]
      · simp [hn]

/-- A table whose keys are the names of different fields is a record as it stands. -/
theorem record_table {fields : List Field} {entries : List (String × Document)}
    (hnames : ∀ k ∈ entries.map (·.1), fieldOf? fields k = some k)
    (hnodup : (entries.map (·.1)).Nodup) : (table entries).record fields = .ok entries := by
  have hgiven : (entries.filterMap fun e => (fieldOf? fields e.1).map fun n => (n, e.2)) = entries := by
    rw [List.filterMap_congr (g := some), List.filterMap_some]
    intro e he
    rw [hnames e.1 (List.mem_map_of_mem he)]
    rfl
  unfold record
  simp only [hgiven, firstRepeated?_eq_none_iff.2 hnodup]

section
variable {given : List (String × Document)} {name name' : String} {d : Document} {fallback : α}

@[simp] theorem fieldOr_nil : fieldOr [] name fallback read = .ok fallback := rfl

@[simp] theorem fieldOr_cons_self : fieldOr ((name, d) :: given) name fallback read = read d := by
  simp [fieldOr]

@[simp] theorem fieldOr_cons_of_ne (h : name ≠ name') :
    fieldOr ((name', d) :: given) name fallback read = fieldOr given name fallback read := by
  unfold fieldOr
  rw [List.lookup_cons, beq_false_of_ne h]

@[simp] theorem fieldOf_cons_self : fieldOf ((name, d) :: given) name read = read d := by
  simp [fieldOf]

@[simp] theorem fieldOf_cons_of_ne (h : name ≠ name') :
    fieldOf ((name', d) :: given) name read = fieldOf given name read := by
  unfold fieldOf
  rw [List.lookup_cons, beq_false_of_ne h]

end

/-! ### Spellings -/

/-- Two documents that are equal, or tables with the same keys up to a spelling and with values that are
alike, as it takes for their key. -/
inductive Alike (spelling : String → String) (alike : String → Document → Document → Prop) :
    Document → Document → Prop
  | same (d : Document) : Alike spelling alike d d
  | tables {entries entries' : List (String × Document)}
      (h : List.Forall₂ (fun e e' => spelling e.1 = spelling e'.1 ∧ alike (spelling e.1) e.2 e'.2)
        entries entries') : Alike spelling alike (table entries) (table entries')

/-- Each field goes by the keys that are spelled like its name, and by no others. -/
def KnowsSpellings (spelling : String → String) (fields : List Field) : Prop :=
  ∀ f ∈ fields, ∀ k, (f.name = k ∨ k ∈ f.others) ↔ f.name = spelling k

variable {spelling : String → String} {alike : String → Document → Document → Prop}
  {fields : List Field} {d d' : Document}

theorem fieldOf?_eq (hfields : KnowsSpellings spelling fields) (k : String) :
    fieldOf? fields k = (fields.find? fun f => f.name = spelling k).map (·.name) := by
  unfold fieldOf?
  rw [List.find?_congr]
  intro f hf
  rw [Bool.eq_iff_iff]
  simpa using hfields f hf k

theorem eq_spelling_of_fieldOf? (hfields : KnowsSpellings spelling fields) {k n : String}
    (h : fieldOf? fields k = some n) : n = spelling k := by
  rw [fieldOf?_eq hfields] at h
  obtain ⟨f, hf, rfl⟩ := Option.map_eq_some_iff.1 h
  simpa using List.find?_some hf

/-- The same fields are given, in the same order, and their values are alike. -/
def FieldsAlike (alike : String → Document → Document → Prop) :
    List (String × Document) → List (String × Document) → Prop :=
  List.Forall₂ fun e e' => e.1 = e'.1 ∧ alike e.1 e.2 e'.2

theorem FieldsAlike.names {given given' : List (String × Document)}
    (h : FieldsAlike alike given given') : given.map (·.1) = given'.map (·.1) := by
  induction h with
  | nil => rfl
  | cons he _ ih => rw [List.map_cons, List.map_cons, he.1, ih]

theorem FieldsAlike.lookup {given given' : List (String × Document)}
    (h : FieldsAlike alike given given') (name : String) :
    Option.Rel (alike name) (given.lookup name) (given'.lookup name) := by
  induction h with
  | nil => exact .none
  | @cons e e' es es' he _ ih =>
      rw [List.lookup_cons, List.lookup_cons, ← he.1]
      by_cases hname : name = e.1
      · subst hname
        rw [beq_self_eq_true]
        exact .some he.2
      · rw [beq_false_of_ne hname]
        exact ih

/-- If only equal values are alike, the given fields are equal. -/
theorem FieldsAlike.eq {given given' : List (String × Document)}
    (h : FieldsAlike (fun _ => Eq) given given') : given = given' := by
  induction h with
  | nil => rfl
  | cons he _ ih => rw [Prod.ext he.1 he.2, ih]

/-- **A record is read alike from tables that are alike**, if it reads alike from fields that are. -/
theorem record_alike (hfields : KnowsSpellings spelling fields) (h : Alike spelling alike d d')
    {build : List (String × Document) → Except ShapeFault α}
    (hbuild : ∀ given given', FieldsAlike alike given given' → build given = build given') :
    d.record fields >>= build = d'.record fields >>= build := by
  cases h with
  | same => rfl
  | @tables entries entries' h =>
      have hgiven : FieldsAlike alike
          (entries.filterMap fun e => (fieldOf? fields e.1).map fun n => (n, e.2))
          (entries'.filterMap fun e => (fieldOf? fields e.1).map fun n => (n, e.2)) := by
        refine List.rel_filterMap (fun e e' he => ?_) h
        have hkey : fieldOf? fields e.1 = fieldOf? fields e'.1 := by
          rw [fieldOf?_eq hfields, fieldOf?_eq hfields, he.1]
        rw [← hkey]
        cases hfield : fieldOf? fields e.1 with
        | none => exact .none
        | some n => exact .some ⟨rfl, eq_spelling_of_fieldOf? hfields hfield ▸ he.2⟩
      unfold record
      simp only [hgiven.names]
      cases firstRepeated? _ with
      | some n => rfl
      | none => exact hbuild _ _ hgiven

section
variable {given given' : List (String × Document)} {name : String}

theorem fieldOr_congr (h : FieldsAlike alike given given')
    (hread : ∀ d d', alike name d d' → read d = read d') (fallback : α) :
    fieldOr given name fallback read = fieldOr given' name fallback read := by
  have hfound := h.lookup name
  unfold fieldOr
  generalize given.lookup name = found, given'.lookup name = found' at hfound ⊢
  cases hfound with
  | none => rfl
  | some hd => exact hread _ _ hd

theorem fieldOr_congr_of_eq (h : FieldsAlike alike given given') (hname : alike name = Eq)
    (fallback : α) : fieldOr given name fallback read = fieldOr given' name fallback read := by
  refine fieldOr_congr h (fun d d' hd => ?_) fallback
  rw [hname] at hd
  rw [hd]

end

/-- A table with free keys is read alike from tables with the same keys. -/
theorem asTable_congr {alike : Document → Document → Prop} (h : Alike id (fun _ => alike) d d')
    (hread : ∀ d d', alike d d' → read d = read d') : asTable read d = asTable read d' := by
  cases h with
  | same => rfl
  | tables h =>
      refine mapM_congr (h.imp fun e e' he => ?_)
      rw [hread _ _ he.2, show e.1 = e'.1 from he.1]

end Document

end DeviceAccess
