import DeviceAccess.Proofs.Policy.Table

/-!
# A table with two rows

Each row of the table of a resource pattern is made from the row below it alone.  So two rows are
enough: the next row is written over the older of the two, in place, from its last entry to its first
(`overwrite`), and then the rows change their parts (`twoRows`).

The entries that are written already and those that are still old stand in one row.  The invariant
says of the written ones that they are right (`isRow_overwrite`), and an entry is written with a look
at right ones only, so the result is the row of the token, whatever the older row held
(`twoRows_spec`).
-/

namespace DeviceAccess.ResourcePattern

variable {text : List Char} {ts : List Token} {below row : List Bool} {t : Token}

/-! ### Writing over a row -/

/-- The entry of a token for the ending at `i`, from the entries at the endings after `i` in the row
that is being written and from the row below. -/
def entryAt (text : List Char) (below : List Bool) (next : Option Token) (row : List Bool) (i : Nat) :
    Token → Bool
  | .anyText => below.getD i false || (i < text.length && row.getD (i + 1) false)
  | .level =>
    let stop := i + (text.drop i).findIdx (· = '/')
    !(stop = i + 1 && text[i]? = some '#') && below.getD stop false
  | .rest => true
  | .char c =>
    (c = '/' && i = text.length && next = some .rest) || (text[i]? = some c && below.getD (i + 1) false)

/-- Writes the first `n` entries of a token's row over an older row, from the last to the first. -/
def overwrite (text : List Char) (below : List Bool) (next : Option Token) (t : Token) :
    Nat → List Bool → List Bool
  | 0, row => row
  | n + 1, row => overwrite text below next t n (row.set n (entryAt text below next row n t))

/-- The row that is written over next, and the topmost row so far. -/
def twoRows (text : List Char) : List Token → List Bool × List Bool
  | [] => (List.replicate (text.length + 1) false, List.replicate text.length false ++ [true])
  | t :: ts =>
    let (older, below) := twoRows text ts
    (below, overwrite text below ts.head? t (text.length + 1) older)

/-! ### Right rows by their entries -/

/-- A row is right if it has an entry for each ending, and the entries tell about the endings. -/
theorem isRow_iff_getD {P : List Char → Prop} {row : List Bool} :
    IsRow P text row ↔ row.length = text.length + 1 ∧
      ∀ i, i ≤ text.length → (row.getD i false = true ↔ P (text.drop i)) := by
  induction text generalizing row with
  | nil =>
      rw [isRow_nil_iff, List.length_nil, Nat.zero_add, List.length_eq_one_iff]
      constructor
      · rintro ⟨entry, rfl, h⟩
        refine ⟨⟨entry, rfl⟩, fun i hi => ?_⟩
        obtain rfl := Nat.le_zero.1 hi
        exact h
      · rintro ⟨⟨entry, rfl⟩, h⟩
        exact ⟨entry, rfl, h 0 (Nat.le_refl 0)⟩
  | cons c text ih =>
      rw [isRow_cons_iff]
      simp only [ih]
      constructor
      · rintro ⟨entry, below, rfl, hentry, hlength, hbelow⟩
        refine ⟨congrArg (· + 1) hlength, fun i hi => ?_⟩
        cases i with
        | zero => exact hentry
        | succ i => exact hbelow i (Nat.le_of_succ_le_succ hi)
      · rintro ⟨hlength, h⟩
        cases row with
        | nil => cases hlength
        | cons entry below =>
            exact ⟨entry, below, rfl, h 0 (Nat.zero_le _), Nat.succ.inj hlength,
              fun i hi => h (i + 1) (Nat.succ_le_succ hi)⟩

/-- There is only one right row. -/
theorem IsRow.unique {P : List Char → Prop} {row row' : List Bool} (h : IsRow P text row)
    (h' : IsRow P text row') : row = row' := by
  induction text generalizing row row' with
  | nil =>
      obtain ⟨entry, rfl, hentry⟩ := isRow_nil_iff.1 h
      obtain ⟨entry', rfl, hentry'⟩ := isRow_nil_iff.1 h'
      rw [Bool.eq_iff_iff.2 (hentry.trans hentry'.symm)]
  | cons c text ih =>
      obtain ⟨entry, below, rfl, hentry, hbelow⟩ := isRow_cons_iff.1 h
      obtain ⟨entry', below', rfl, hentry', hbelow'⟩ := isRow_cons_iff.1 h'
      rw [Bool.eq_iff_iff.2 (hentry.trans hentry'.symm), ih hbelow hbelow']

/-! ### Right entries -/

/-- A wildcard for any text takes nothing, or one more character. -/
theorem fits_anyText_drop_iff {i : Nat} (hi : i ≤ text.length) :
    Fits (.anyText :: ts) (text.drop i) ↔ Fits ts (text.drop i) ∨
      (i < text.length ∧ Fits (.anyText :: ts) (text.drop (i + 1))) := by
  constructor
  · rintro ⟨taken, rest, he, h⟩
    cases taken with
    | nil =>
        rw [List.nil_append] at he
        exact .inl (he ▸ h)
    | cons c taken =>
        have hlt : i < text.length := by
          have hlength := congrArg List.length he
          rw [List.length_drop, List.length_append, List.length_cons] at hlength
          omega
        rw [List.drop_eq_getElem_cons hlt, List.cons_append] at he
        exact .inr ⟨hlt, taken, rest, (List.cons.inj he).2, h⟩
  · rintro (h | ⟨hlt, taken, rest, he, h⟩)
    · exact ⟨[], _, rfl, h⟩
    · refine ⟨text[i] :: taken, rest, ?_, h⟩
      rw [List.drop_eq_getElem_cons hlt, he, List.cons_append]

theorem afterLevel_drop (text : List Char) (i : Nat) :
    afterLevel (text.drop i) = text.drop (i + (text.drop i).findIdx (· = '/')) := by
  unfold afterLevel
  rw [List.dropWhile_eq_drop_findIdx_not, List.drop_drop]
  simp

/-- The level that an ending starts with is `#` if it ends behind its first character and this is a
`#`. -/
theorem levelOf_drop_eq_rest_iff (text : List Char) (i : Nat) :
    levelOf (text.drop i) = ['#'] ↔
      i + (text.drop i).findIdx (· = '/') = i + 1 ∧ text[i]? = some '#' := by
  rw [← startsWithRest_iff, Nat.add_left_cancel_iff, ← List.head?_drop]
  cases text.drop i with
  | nil => simp [startsWithRest]
  | cons c rest =>
      by_cases hc : c = '#'
      · subst hc
        cases rest with
        | nil => simp [startsWithRest, endsLevel, List.findIdx_cons]
        | cons d rest =>
            by_cases hd : d = '/'
            · simp [startsWithRest, endsLevel, List.findIdx_cons, hd]
            · simp [startsWithRest, endsLevel, List.findIdx_cons, hd]
      · simp [startsWithRest, hc]

/-- An entry is right if the row below is right and the entry to its right is. -/
theorem entryAt_iff (hbelow : IsRow (Fits ts) text below) {i : Nat} (hi : i ≤ text.length)
    (hrow : i < text.length →
      (row.getD (i + 1) false = true ↔ Fits (t :: ts) (text.drop (i + 1)))) :
    entryAt text below ts.head? row i t = true ↔ Fits (t :: ts) (text.drop i) := by
  have hentry := (isRow_iff_getD.1 hbelow).2
  cases t with
  | anyText =>
      rw [fits_anyText_drop_iff hi, entryAt, Bool.or_eq_true, hentry i hi, Bool.and_eq_true,
        decide_eq_true_eq]
      exact or_congr_right (and_congr_right hrow)
  | level =>
      have hstop : i + (text.drop i).findIdx (· = '/') ≤ text.length := by
        have hle : (text.drop i).findIdx (· = '/') ≤ (text.drop i).length :=
          List.findIdx_le_length
        rw [List.length_drop] at hle
        omega
      rw [Fits, afterLevel_drop, Ne, levelOf_drop_eq_rest_iff, entryAt, Bool.and_eq_true,
        hentry _ hstop, Bool.not_eq_true', ← Bool.not_eq_true, Bool.and_eq_true, decide_eq_true_eq,
        decide_eq_true_eq]
  | rest => exact iff_of_true rfl trivial
  | char c =>
      rw [entryAt, Bool.or_eq_true]
      refine or_congr ?_ ?_
      · have hlast : text.drop i = [] ↔ i = text.length := by
          rw [List.drop_eq_nil_iff]
          omega
        rw [hlast]
        simp only [Bool.and_eq_true, decide_eq_true_eq, and_assoc, and_comm]
      · rw [Bool.and_eq_true, decide_eq_true_eq, List.getElem?_eq_some_iff]
        constructor
        · rintro ⟨⟨hlt, rfl⟩, h⟩
          exact ⟨_, List.drop_eq_getElem_cons hlt, (hentry _ hlt).1 h⟩
        · rintro ⟨rest, he, h⟩
          have hlt : i < text.length := by
            have hlength := congrArg List.length he
            rw [List.length_drop, List.length_cons] at hlength
            omega
          rw [List.drop_eq_getElem_cons hlt] at he
          obtain ⟨hc, rfl⟩ := List.cons.inj he
          exact ⟨⟨hlt, hc⟩, (hentry _ hlt).2 h⟩

/-! ### The rows that are left -/

/-- If the entries from `n` on are right, all are once the others are written. -/
theorem isRow_overwrite (hbelow : IsRow (Fits ts) text below) {n : Nat} (hn : n ≤ text.length + 1)
    (hlength : row.length = text.length + 1)
    (hrow : ∀ i, n ≤ i → i ≤ text.length →
      (row.getD i false = true ↔ Fits (t :: ts) (text.drop i))) :
    IsRow (Fits (t :: ts)) text (overwrite text below ts.head? t n row) := by
  induction n generalizing row with
  | zero => exact isRow_iff_getD.2 ⟨hlength, fun i hi => hrow i (Nat.zero_le i) hi⟩
  | succ n ih =>
      refine ih (Nat.le_of_succ_le hn) (by rw [List.length_set, hlength]) fun i hni hi => ?_
      rw [List.getD_eq_getElem?_getD, List.getElem?_set]
      by_cases he : n = i
      · subst he
        rw [if_pos rfl, if_pos (by omega), Option.getD_some]
        exact entryAt_iff hbelow hi fun hlt => hrow _ (Nat.le_refl _) hlt
      · rw [if_neg he, ← List.getD_eq_getElem?_getD]
        exact hrow i (by omega) hi

/-- **Two rows are enough.** -/
theorem twoRows_spec (text : List Char) (ts : List Token) :
    (twoRows text ts).1.length = text.length + 1 ∧ (twoRows text ts).2 = table text ts := by
  induction ts with
  | nil => exact ⟨List.length_replicate, rfl⟩
  | cons t ts ih =>
      obtain ⟨hlength, htable⟩ := ih
      have hbelow := isRow_table text ts
      constructor
      · show (twoRows text ts).2.length = _
        rw [htable]
        exact (isRow_iff_getD.1 hbelow).1
      · show overwrite text (twoRows text ts).2 ts.head? t (text.length + 1) (twoRows text ts).1 = _
        rw [htable]
        refine (isRow_overwrite hbelow (Nat.le_refl _) hlength fun i hni hi => ?_).unique
          (isRow_table text (t :: ts))
        omega

end DeviceAccess.ResourcePattern
