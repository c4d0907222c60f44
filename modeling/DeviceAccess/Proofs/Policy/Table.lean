import Mathlib.Data.List.Forall2
import DeviceAccess.Policy.Resource

/-!
# What the table of a resource pattern decides

`Fits tokens text` says without a table when a text fits the tokens of a pattern: each token
takes a part of the text and the rest fits the tokens after it.  A row of the table is right for
a property if each of its entries tells whether the ending it stands for has the property
(`IsRow`).  Every row that is built from a right row is right, so the table decides `Fits`
(`here_table_iff`).
-/

namespace DeviceAccess.ResourcePattern

/-- The level that a text starts with. -/
def levelOf (text : List Char) : List Char := text.takeWhile (· ≠ '/')

/-- What follows the level that a text starts with. -/
def afterLevel (text : List Char) : List Char := text.dropWhile (· ≠ '/')

theorem levelOf_append {level rest : List Char} (h : '/' ∉ level) (hrest : endsLevel rest = true) :
    levelOf (level ++ rest) = level ∧ afterLevel (level ++ rest) = rest := by
  have hall : ∀ c ∈ level, decide (c ≠ '/') = true := by
    intro c hc
    rw [decide_eq_true_eq]
    rintro rfl
    exact h hc
  unfold levelOf afterLevel
  rw [List.takeWhile_append_of_pos hall, List.dropWhile_append_of_pos hall]
  cases rest with
  | nil => simp
  | cons c rest =>
      have hc : c = '/' := by simpa [endsLevel] using hrest
      simp [hc]

theorem levelOf_append_afterLevel (text : List Char) : levelOf text ++ afterLevel text = text :=
  List.takeWhile_append_dropWhile

theorem afterLevel_eq (text : List Char) :
    afterLevel text = [] ∨ ∃ rest, afterLevel text = '/' :: rest := by
  cases h : afterLevel text with
  | nil => exact .inl rfl
  | cons c rest =>
      have hc : ¬decide (c ≠ '/') = true := by
        have := List.head?_dropWhile_not (fun c => decide (c ≠ '/')) text
        unfold afterLevel at h
        rw [h] at this
        simpa using this
      obtain rfl : c = '/' := by simpa using hc
      exact .inr ⟨rest, rfl⟩

theorem not_mem_levelOf (text : List Char) : '/' ∉ levelOf text := by
  intro h
  simpa using List.all_eq_true.1 (List.all_takeWhile (p := fun c => decide (c ≠ '/'))) _ h

theorem endsLevel_afterLevel (text : List Char) : endsLevel (afterLevel text) = true := by
  rcases afterLevel_eq text with h | ⟨rest, h⟩
  · rw [h]
    rfl
  · rw [h]
    rfl

/-- A text fits the tokens of a pattern. -/
def Fits : List Token → List Char → Prop
  | [], text => text = []
  | .anyText :: ts, text => ∃ taken rest, text = taken ++ rest ∧ Fits ts rest
  | .level :: ts, text => levelOf text ≠ ['#'] ∧ Fits ts (afterLevel text)
  | .rest :: _, _ => True
  | .char c :: ts, text =>
    (c = '/' ∧ ts.head? = some .rest ∧ text = []) ∨ ∃ rest, text = c :: rest ∧ Fits ts rest

/-! ### Rows -/

/-- The entries of a row tell which endings of the text have the property. -/
def IsRow (P : List Char → Prop) (text : List Char) (row : List Bool) : Prop :=
  List.Forall₂ (fun ending entry => entry = true ↔ P ending) (endings text) row

theorem isRow_nil_iff {P : List Char → Prop} {row : List Bool} :
    IsRow P [] row ↔ ∃ entry, row = [entry] ∧ (entry = true ↔ P []) := by
  unfold IsRow endings
  simp only [List.forall₂_cons_left_iff, List.forall₂_nil_left_iff]
  constructor
  · rintro ⟨entry, _, h, rfl, rfl⟩
    exact ⟨entry, rfl, h⟩
  · rintro ⟨entry, rfl, h⟩
    exact ⟨entry, [], h, rfl, rfl⟩

theorem isRow_cons_iff {P : List Char → Prop} {c : Char} {text : List Char} {row : List Bool} :
    IsRow P (c :: text) row ↔
      ∃ entry below, row = entry :: below ∧ (entry = true ↔ P (c :: text)) ∧ IsRow P text below := by
  unfold IsRow
  rw [endings, List.forall₂_cons_left_iff]
  constructor
  · rintro ⟨entry, below, h, hbelow, rfl⟩
    exact ⟨entry, below, rfl, h, hbelow⟩
  · rintro ⟨entry, below, rfl, h, hbelow⟩
    exact ⟨entry, below, h, hbelow, rfl⟩

/-- The first entry of a right row is about the whole text. -/
theorem IsRow.here_iff {P : List Char → Prop} {text : List Char} {row : List Bool}
    (h : IsRow P text row) : here row = true ↔ P text := by
  cases text with
  | nil =>
      obtain ⟨entry, rfl, hentry⟩ := isRow_nil_iff.1 h
      exact hentry
  | cons c text =>
      obtain ⟨entry, below, rfl, hentry, _⟩ := isRow_cons_iff.1 h
      exact hentry

theorem IsRow.congr {P Q : List Char → Prop} {text : List Char} {row : List Bool}
    (h : IsRow P text row) (hPQ : ∀ ending, P ending ↔ Q ending) : IsRow Q text row := by
  refine List.Forall₂.imp ?_ h
  intro ending entry he
  exact he.trans (hPQ ending)

theorem isRow_replicate_true (text : List Char) :
    IsRow (fun _ => True) text (List.replicate (text.length + 1) true) := by
  induction text with
  | nil => exact isRow_nil_iff.2 ⟨true, rfl, by simp⟩
  | cons c text ih => exact isRow_cons_iff.2 ⟨true, _, rfl, by simp, ih⟩

/-- The lowest row: no token is left, so only the empty ending fits. -/
theorem isRow_bottom (text : List Char) :
    IsRow (· = []) text (List.replicate text.length false ++ [true]) := by
  induction text with
  | nil => exact isRow_nil_iff.2 ⟨true, rfl, by simp⟩
  | cons c text ih => exact isRow_cons_iff.2 ⟨false, _, rfl, by simp, ih⟩

theorem IsRow.anyTextRow {P : List Char → Prop} {text : List Char} {below : List Bool}
    (h : IsRow P text below) :
    IsRow (fun e => ∃ taken rest, e = taken ++ rest ∧ P rest) text
      (ResourcePattern.anyTextRow text below) := by
  induction text generalizing below with
  | nil =>
      refine isRow_nil_iff.2 ⟨here below, rfl, ?_⟩
      rw [h.here_iff]
      constructor
      · intro hP
        exact ⟨[], [], rfl, hP⟩
      · rintro ⟨taken, rest, he, hP⟩
        rwa [(List.append_eq_nil_iff.1 he.symm).2] at hP
  | cons c text ih =>
      have hhere := h.here_iff
      obtain ⟨entry, tail, rfl, _, htail⟩ := isRow_cons_iff.1 h
      have hrow := ih htail
      refine isRow_cons_iff.2 ⟨_, _, rfl, ?_, hrow⟩
      rw [Bool.or_eq_true, hhere, List.tail_cons, hrow.here_iff]
      -- the wildcard takes nothing, or it takes `c` and goes on
      constructor
      · rintro (hP | ⟨taken, rest, rfl, hP⟩)
        · exact ⟨[], _, rfl, hP⟩
        · exact ⟨c :: taken, rest, rfl, hP⟩
      · rintro ⟨taken, rest, he, hP⟩
        cases taken with
        | nil =>
            rw [List.nil_append] at he
            exact .inl (he ▸ hP)
        | cons d taken =>
            obtain ⟨-, he⟩ := List.cons.inj he
            exact .inr ⟨taken, rest, he, hP⟩

theorem IsRow.levelEnds {P : List Char → Prop} {text : List Char} {below : List Bool}
    (h : IsRow P text below) :
    IsRow (fun e => P (afterLevel e)) text (ResourcePattern.levelEnds text below) := by
  induction text generalizing below with
  | nil => exact isRow_nil_iff.2 ⟨here below, rfl, h.here_iff⟩
  | cons c text ih =>
      have hhere := h.here_iff
      obtain ⟨entry, tail, rfl, _, htail⟩ := isRow_cons_iff.1 h
      have hrow := ih htail
      refine isRow_cons_iff.2 ⟨_, _, rfl, ?_, hrow⟩
      by_cases hc : c = '/'
      · simpa [hc, afterLevel] using hhere
      · simpa [hc, afterLevel] using hrow.here_iff

theorem startsWithRest_iff {text : List Char} :
    startsWithRest text = true ↔ levelOf text = ['#'] := by
  match text with
  | [] => simp [startsWithRest, levelOf]
  | c :: text =>
      by_cases hc : c = '#'
      · subst hc
        cases text with
        | nil => simp [startsWithRest, levelOf, endsLevel]
        | cons d text =>
            by_cases hd : d = '/'
            · simp [startsWithRest, levelOf, endsLevel, hd]
            · simp [startsWithRest, levelOf, endsLevel, hd]
      · by_cases hs : c = '/'
        · simp [startsWithRest, levelOf, hs]
        · simp [startsWithRest, levelOf, hc, hs]

theorem IsRow.zipWith_endings {P : List Char → Prop} (f : List Char → Bool) {text : List Char}
    {row : List Bool} (h : IsRow P text row) :
    IsRow (fun e => f e = true ∧ P e) text
      ((endings text).zipWith (fun ending fits => f ending && fits) row) := by
  unfold IsRow at h ⊢
  generalize endings text = l at h ⊢
  induction h with
  | nil => exact .nil
  | @cons ending entry _ _ he _ ih =>
      refine .cons ?_ ih
      rw [Bool.and_eq_true, he]

theorem IsRow.levelRow {P : List Char → Prop} {text : List Char} {below : List Bool}
    (h : IsRow P text below) :
    IsRow (fun e => levelOf e ≠ ['#'] ∧ P (afterLevel e)) text
      (ResourcePattern.levelRow text below) := by
  refine (h.levelEnds.zipWith_endings fun ending => !startsWithRest ending).congr fun ending => ?_
  rw [Bool.not_eq_true', ← Bool.not_eq_true, startsWithRest_iff]

theorem IsRow.charRow {P : List Char → Prop} (c : Char) (atEnd : Bool) {text : List Char}
    {below : List Bool} (h : IsRow P text below) :
    IsRow (fun e => (atEnd = true ∧ e = []) ∨ ∃ rest, e = c :: rest ∧ P rest) text
      (ResourcePattern.charRow c atEnd text below) := by
  induction text generalizing below with
  | nil => exact isRow_nil_iff.2 ⟨atEnd, rfl, by simp⟩
  | cons d text ih =>
      obtain ⟨entry, tail, rfl, _, htail⟩ := isRow_cons_iff.1 h
      refine isRow_cons_iff.2 ⟨_, _, rfl, ?_, ih htail⟩
      rw [List.tail_cons, Bool.and_eq_true, decide_eq_true_eq, htail.here_iff]
      constructor
      · rintro ⟨rfl, hP⟩
        exact .inr ⟨text, rfl, hP⟩
      · rintro (⟨_, he⟩ | ⟨rest, he, hP⟩)
        · cases he
        · obtain ⟨rfl, rfl⟩ := List.cons.inj he
          exact ⟨rfl, hP⟩

/-! ### The table -/

/-- The rows of the table are right, from the lowest one up. -/
theorem isRow_table (text : List Char) (ts : List Token) : IsRow (Fits ts) text (table text ts) := by
  induction ts with
  | nil => exact isRow_bottom text
  | cons t ts ih =>
      cases t with
      | anyText => exact ih.anyTextRow
      | level => exact ih.levelRow
      | rest => exact isRow_replicate_true text
      | char c =>
          refine (ih.charRow c (c = '/' && ts.head? = some .rest)).congr fun ending => ?_
          simp [Fits, and_assoc]

/-- **The table decides whether the text fits.** -/
theorem here_table_iff {text : List Char} {ts : List Token} :
    here (table text ts) = true ↔ Fits ts text :=
  (isRow_table text ts).here_iff

/-- A pattern covers itself and every text that fits its tokens. -/
theorem covers_iff {pattern resource : String} : covers pattern resource = true ↔
    pattern = resource ∨ Fits (tokens pattern.toList) resource.toList := by
  rw [covers, Bool.or_eq_true, decide_eq_true_eq, here_table_iff]

end DeviceAccess.ResourcePattern
