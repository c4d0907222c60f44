import DeviceAccess.Proofs.Policy.Rows

/-!
# What a resource pattern stands for

`StandsFor before pattern text` reads a pattern character by character, without tokens and without a
table: what a character takes of the text depends on the characters around it only.  `*` takes any
text; a `+` that is a whole level takes a level other than `#`; a last `#` that is a whole level takes
the rest, and the `/` before it may end the text; all else takes itself.

The table decides this relation (`covers_iff_standsFor`), whether a run of `*` is read as one wildcard
(`fits_tokens_iff`) or as one for each `*` (`fits_tokensEach_iff`).
-/

namespace DeviceAccess.ResourcePattern

/-! ### The relation -/

/-- Nothing stands before, or a `/` or a `:`. -/
def AtLevelStart (before : Option Char) : Prop := ∀ c, before = some c → c = '/' ∨ c = ':'

/-- Nothing follows, or a `/`. -/
def AtLevelEnd (after : List Char) : Prop := ∀ c, after.head? = some c → c = '/'

/-- The character has a meaning of its own between what stands before and after it. -/
def IsWildcard (before : Option Char) (c : Char) (after : List Char) : Prop :=
  c = '*' ∨ (c = '+' ∧ AtLevelStart before ∧ AtLevelEnd after) ∨
    (c = '#' ∧ AtLevelStart before ∧ after = [])

/-- A pattern that follows the character `before` stands for a text. -/
inductive StandsFor : Option Char → List Char → List Char → Prop
  | done {before : Option Char} : StandsFor before [] []
  /-- `*` stands for any text. -/
  | anyText {before : Option Char} {pattern text : List Char} (taken : List Char) :
      StandsFor (some '*') pattern text → StandsFor before ('*' :: pattern) (taken ++ text)
  /-- `+` stands for a level other than `#`. -/
  | level {before : Option Char} {pattern level text : List Char} :
      AtLevelStart before → AtLevelEnd pattern → '/' ∉ level → AtLevelEnd text → level ≠ ['#'] →
      StandsFor (some '+') pattern text → StandsFor before ('+' :: pattern) (level ++ text)
  /-- A last `#` stands for the rest. -/
  | rest {before : Option Char} (text : List Char) :
      AtLevelStart before → StandsFor before ['#'] text
  /-- The `/` before a last `#` may end the text. -/
  | parent {before : Option Char} : StandsFor before ['/', '#'] []
  /-- Any other character stands for itself. -/
  | itself {before : Option Char} {c : Char} {pattern text : List Char} :
      ¬IsWildcard before c pattern → StandsFor (some c) pattern text →
      StandsFor before (c :: pattern) (c :: text)

variable {before : Option Char} {c : Char} {pattern text : List Char} {ts : List Token}

theorem startsLevel_iff : startsLevel before = true ↔ AtLevelStart before := by
  unfold startsLevel AtLevelStart
  cases before with
  | none => simp
  | some c => simp

theorem endsLevel_iff : endsLevel text = true ↔ AtLevelEnd text := by
  unfold endsLevel AtLevelEnd
  cases text with
  | nil => simp
  | cons c text => simp

theorem standsFor_nil_iff : StandsFor before [] text ↔ text = [] := by
  constructor
  · intro h
    cases h
    rfl
  · rintro rfl
    exact .done

theorem standsFor_star_iff : StandsFor before ('*' :: pattern) text ↔
    ∃ taken rest, text = taken ++ rest ∧ StandsFor (some '*') pattern rest := by
  constructor
  · intro h
    cases h with
    | anyText taken h => exact ⟨taken, _, rfl, h⟩
    | itself hno _ => exact absurd (.inl rfl) hno
  · rintro ⟨taken, rest, rfl, h⟩
    exact .anyText taken h

theorem standsFor_plus_iff (hstart : AtLevelStart before) (hend : AtLevelEnd pattern) :
    StandsFor before ('+' :: pattern) text ↔ ∃ level rest, text = level ++ rest ∧ '/' ∉ level ∧
      AtLevelEnd rest ∧ level ≠ ['#'] ∧ StandsFor (some '+') pattern rest := by
  constructor
  · intro h
    cases h with
    | level _ _ hno hrest hne h => exact ⟨_, _, rfl, hno, hrest, hne, h⟩
    | itself hno _ => exact absurd (.inr (.inl ⟨rfl, hstart, hend⟩)) hno
  · rintro ⟨level, rest, rfl, hno, hrest, hne, h⟩
    exact .level hstart hend hno hrest hne h

/-- A character that is no wildcard stands for itself, or is the `/` before a last `#`. -/
theorem standsFor_cons_iff (hno : ¬IsWildcard before c pattern) :
    StandsFor before (c :: pattern) text ↔ (c = '/' ∧ pattern = ['#'] ∧ text = []) ∨
      ∃ rest, text = c :: rest ∧ StandsFor (some c) pattern rest := by
  constructor
  · intro h
    cases h with
    | anyText taken _ => exact absurd (.inl rfl) hno
    | level hstart hend _ _ _ _ => exact absurd (.inr (.inl ⟨rfl, hstart, hend⟩)) hno
    | rest _ hstart => exact absurd (.inr (.inr ⟨rfl, hstart, rfl⟩)) hno
    | parent => exact .inl ⟨rfl, rfl, rfl⟩
    | itself _ h => exact .inr ⟨_, rfl, h⟩
  · rintro (⟨rfl, rfl, rfl⟩ | ⟨rest, rfl, h⟩)
    · exact .parent
    · exact .itself hno h

/-- Every pattern stands for itself as a text. -/
theorem standsFor_self (before : Option Char) (pattern : List Char) :
    StandsFor before pattern pattern := by
  induction pattern generalizing before with
  | nil => exact .done
  | cons c pattern ih =>
      by_cases hwild : IsWildcard before c pattern
      · rcases hwild with rfl | ⟨rfl, hstart, hend⟩ | ⟨rfl, hstart, rfl⟩
        · exact .anyText ['*'] (ih (some '*'))
        · have hlevel : '/' ∉ ['+'] := by decide
          exact .level hstart hend hlevel hend (by decide) (ih (some '+'))
        · exact .rest _ hstart
      · exact .itself hwild (ih (some c))

/-! ### One token for each character -/

/-- The token of a character between what stands before and after it. -/
def tokenAt (before : Option Char) (c : Char) (after : List Char) : Token :=
  if c = '*' then .anyText
  else if c = '+' && startsLevel before && endsLevel after then .level
  else if c = '#' && startsLevel before && after.isEmpty then .rest
  else .char c

/-- Reads a pattern that follows the character `before`, with a wildcard for each `*`. -/
def tokensEach (before : Option Char) : List Char → List Token
  | [] => []
  | c :: after => tokenAt before c after :: tokensEach (some c) after

theorem tokenAt_plus (hstart : AtLevelStart before) (hend : AtLevelEnd pattern) :
    tokenAt before '+' pattern = .level := by
  simp [tokenAt, startsLevel_iff.2 hstart, endsLevel_iff.2 hend]

theorem tokenAt_hash (hstart : AtLevelStart before) : tokenAt before '#' [] = .rest := by
  simp [tokenAt, startsLevel_iff.2 hstart]

theorem tokenAt_of_not_isWildcard (h : ¬IsWildcard before c pattern) :
    tokenAt before c pattern = .char c := by
  unfold IsWildcard at h
  rw [not_or, not_or] at h
  obtain ⟨hstar, hplus, hhash⟩ := h
  unfold tokenAt
  rw [if_neg hstar, if_neg, if_neg]
  · simpa [startsLevel_iff, and_assoc] using hhash
  · simpa [startsLevel_iff, endsLevel_iff, and_assoc] using hplus

theorem head?_tokensEach_eq_rest_iff (hstart : AtLevelStart before) :
    (tokensEach before pattern).head? = some .rest ↔ pattern = ['#'] := by
  cases pattern with
  | nil => simp [tokensEach]
  | cons c pattern =>
      rw [tokensEach, List.head?_cons, Option.some.injEq]
      by_cases hwild : IsWildcard before c pattern
      · rcases hwild with rfl | ⟨rfl, hstart, hend⟩ | ⟨rfl, hstart, rfl⟩
        · simp [tokenAt]
        · simp [tokenAt_plus hstart hend]
        · simp [tokenAt_hash hstart]
      · rw [tokenAt_of_not_isWildcard hwild]
        refine iff_of_false nofun fun he => hwild ?_
        obtain ⟨rfl, rfl⟩ := List.cons.inj he
        exact .inr (.inr ⟨rfl, hstart, rfl⟩)

/-- Texts that fit the tokens are those that the pattern stands for. -/
theorem fits_tokensEach_iff :
    Fits (tokensEach before pattern) text ↔ StandsFor before pattern text := by
  induction pattern generalizing before text with
  | nil => exact standsFor_nil_iff.symm
  | cons c pattern ih =>
      rw [tokensEach]
      by_cases hwild : IsWildcard before c pattern
      · rcases hwild with rfl | ⟨rfl, hstart, hend⟩ | ⟨rfl, hstart, rfl⟩
        · rw [standsFor_star_iff]
          simp only [tokenAt, if_true, Fits, ih]
        · rw [standsFor_plus_iff hstart hend, tokenAt_plus hstart hend, Fits, ih]
          constructor
          · rintro ⟨hne, h⟩
            exact ⟨levelOf text, afterLevel text, (levelOf_append_afterLevel text).symm,
              not_mem_levelOf text, endsLevel_iff.1 (endsLevel_afterLevel text), hne, h⟩
          · rintro ⟨level, rest, rfl, hno, hrest, hne, h⟩
            obtain ⟨hlevel, hafter⟩ := levelOf_append hno (endsLevel_iff.2 hrest)
            rw [hlevel, hafter]
            exact ⟨hne, h⟩
        · rw [tokenAt_hash hstart]
          exact iff_of_true trivial (.rest text hstart)
      · rw [standsFor_cons_iff hwild, tokenAt_of_not_isWildcard hwild, Fits]
        simp only [ih]
        refine or_congr_left (and_congr_right ?_)
        rintro rfl
        rw [head?_tokensEach_eq_rest_iff fun c hc => .inl (Option.some.inj hc).symm]

/-! ### Runs of `*` -/

/-- Two wildcards for any text are as good as one. -/
theorem fits_anyText_anyText_iff :
    Fits (.anyText :: .anyText :: ts) text ↔ Fits (.anyText :: ts) text := by
  constructor
  · rintro ⟨taken, _, rfl, taken', rest, rfl, h⟩
    exact ⟨taken ++ taken', rest, (List.append_assoc ..).symm, h⟩
  · rintro ⟨taken, rest, rfl, h⟩
    exact ⟨taken, rest, rfl, [], rest, rfl, h⟩

/-- Tokens that the same texts fit may stand for each other behind a token. -/
theorem fits_cons_congr {ts' : List Token} (hhead : ts.head? = ts'.head?)
    (h : ∀ text, Fits ts text ↔ Fits ts' text) (t : Token) (text : List Char) :
    Fits (t :: ts) text ↔ Fits (t :: ts') text := by
  cases t with
  | char c => simp only [Fits, hhead, h]
  | anyText => simp only [Fits, h]
  | level => simp only [Fits, h]
  | rest => rfl

theorem tokensAfter_cons (before : Option Char) (c : Char) (after : List Char) :
    tokensAfter before (c :: after) =
      if c = '*' ∧ before = some '*' then tokensAfter (some c) after
      else tokenAt before c after :: tokensAfter (some c) after := by
  rw [tokensAfter]
  unfold tokenAt
  by_cases hstar : c = '*'
  · by_cases hbefore : before = some '*'
    · simp [hstar, hbefore]
    · simp [hstar, hbefore]
  · simp only [hstar, false_and, if_false]
    split
    · rfl
    · split
      · rfl
      · rfl

theorem head?_tokensAfter (h : before ≠ some '*') :
    (tokensAfter before pattern).head? = (tokensEach before pattern).head? := by
  cases pattern with
  | nil => rfl
  | cons c pattern =>
      rw [tokensAfter_cons, if_neg fun hc => h hc.2]
      rfl

/-- A run of `*` may be read as one wildcard: at the start of a run, and behind a `*`, the same texts
fit. -/
theorem fits_tokensAfter_iff_tokensEach (pattern : List Char) :
    (∀ before, before ≠ some '*' → ∀ text,
      Fits (tokensAfter before pattern) text ↔ Fits (tokensEach before pattern) text) ∧
    ∀ text, Fits (.anyText :: tokensAfter (some '*') pattern) text ↔
      Fits (.anyText :: tokensEach (some '*') pattern) text := by
  induction pattern with
  | nil => exact ⟨fun _ _ _ => Iff.rfl, fun _ => Iff.rfl⟩
  | cons c pattern ih =>
      obtain ⟨ihstart, ihrun⟩ := ih
      have hother (hc : c ≠ '*') (before : Option Char) (text : List Char) :
          Fits (tokensAfter before (c :: pattern)) text ↔
            Fits (tokensEach before (c :: pattern)) text := by
        have hne : some c ≠ some '*' := fun he => hc (Option.some.inj he)
        rw [tokensAfter_cons, if_neg fun h => hc h.1]
        exact fits_cons_congr (head?_tokensAfter hne) (ihstart _ hne) _ text
      by_cases hc : c = '*'
      · subst hc
        constructor
        · intro before hbefore text
          rw [tokensAfter_cons, if_neg fun h => hbefore h.2]
          exact ihrun text
        · intro text
          rw [tokensAfter_cons, if_pos ⟨rfl, rfl⟩, ihrun]
          exact fits_anyText_anyText_iff.symm
      · refine ⟨fun before _ => hother hc before, ?_⟩
        rintro text
        simp only [Fits, hother hc]

/-- Texts that fit the tokens of a pattern are those that it stands for. -/
theorem fits_tokens_iff : Fits (tokens pattern) text ↔ StandsFor none pattern text :=
  ((fits_tokensAfter_iff_tokensEach pattern).1 none nofun text).trans fits_tokensEach_iff

/-! ### What is covered -/

/-- A pattern covers a text exactly if the text fits its tokens: that it covers itself is no exception. -/
theorem covers_iff_fits {pattern resource : String} :
    covers pattern resource = true ↔ Fits (tokens pattern.toList) resource.toList := by
  rw [covers_iff]
  constructor
  · rintro (rfl | h)
    · exact fits_tokens_iff.2 (standsFor_self none _)
    · exact h
  · exact .inr

/-- **A pattern covers what it stands for.**  A granted pattern covers exactly the requests that it
stands for, itself among them.  Neither the comparison of the two texts nor the reading of a run of `*`
as one wildcard nor the use of two rows for the whole table changes the answer. -/
theorem covers_iff_standsFor (pattern resource : String) :
    (covers pattern resource = true ↔ StandsFor none pattern.toList resource.toList) ∧
      StandsFor none pattern.toList pattern.toList ∧
      here (table resource.toList (tokens pattern.toList)) = covers pattern resource ∧
      here (table resource.toList (tokensEach none pattern.toList)) = covers pattern resource ∧
      here (twoRows resource.toList (tokens pattern.toList)).2 = covers pattern resource := by
  have hcovers : covers pattern resource = true ↔ StandsFor none pattern.toList resource.toList :=
    covers_iff_fits.trans fits_tokens_iff
  have htable : here (table resource.toList (tokens pattern.toList)) = covers pattern resource :=
    Bool.eq_iff_iff.2 (here_table_iff.trans covers_iff_fits.symm)
  refine ⟨hcovers, standsFor_self none _, htable, ?_, ?_⟩
  · exact Bool.eq_iff_iff.2 ((here_table_iff.trans fits_tokensEach_iff).trans hcovers.symm)
  · rw [(twoRows_spec _ _).2]
    exact htable

end DeviceAccess.ResourcePattern
