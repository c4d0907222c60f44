import Mathlib.Tactic.SplitIfs
import DeviceAccess.Policy.Rule
import DeviceAccess.Proofs.Attempt

/-!
# The tokens of a rule

`Rule.Spells text tokens` says how a text writes a list of tokens, without a reader: before each token
and at the end any blanks, a colon as itself, a word as its spelling, and no word goes on where it is
said to end.  The reader of tokens accepts exactly the texts that write some tokens, and reads those
(`Rule.tokensWithin_eq_ok_iff`).

Only a word knows escapes, and only one: `\:` for a colon.  So a word has one spelling, and words
without a colon are their own.
-/

namespace DeviceAccess.Rule

variable {source : String} {word more text rest gap : List Char} {ts : List Token} {c : Char}

/-! ### Words and blanks -/

/-- A character as it is written inside of a word. -/
def written (c : Char) : List Char := if c = ':' then ['\\', ':'] else [c]

/-- A word as it is written in a rule. -/
def spelling (word : List Char) : List Char := word.flatMap written

/-- A character that can stand in a word, a colon with its escape. -/
def IsLetter (c : Char) : Prop := isWordChar c = true ∨ c = ':'

/-- A word has some character, and only such as can stand in a word. -/
def IsWord (word : List Char) : Prop := word ≠ [] ∧ ∀ c ∈ word, IsLetter c

/-- A word that was read up to here ends here. -/
def EndsWord (rest : List Char) : Prop := ∀ c, rest.head? = some c → isWordChar c = false ∧ c ≠ '\\'

/-- Nothing but blanks. -/
def IsBlankText (text : List Char) : Prop := ∀ c ∈ text, Text.isBlank c = true

/-- How a text writes tokens; blanks may stand before each of them and at the end. -/
inductive Spells : List Char → List Token → Prop where
  | done {gap : List Char} (hgap : IsBlankText gap) : Spells gap []
  | colon {gap text : List Char} {ts : List Token} (hgap : IsBlankText gap) (hrest : Spells text ts) :
      Spells (gap ++ ':' :: text) (.colon :: ts)
  /-- A word goes on as long as it can. -/
  | word {gap word text : List Char} {ts : List Token} (hgap : IsBlankText gap) (hword : IsWord word)
      (hends : EndsWord text) (hrest : Spells text ts) :
      Spells (gap ++ (spelling word ++ text)) (.word word :: ts)

theorem not_isWordChar_of_isBlank (h : Text.isBlank c = true) :
    isWordChar c = false ∧ c ≠ '\\' ∧ c ≠ ':' := by
  refine ⟨?_, ?_, ?_⟩
  · rw [Bool.eq_false_iff]
    intro hword
    simp [Text.isBlank, Text.blankRanges] at h
    unfold isWordChar Char.isAlphanum Char.isAlpha Char.isUpper Char.isLower Char.isDigit at hword
    simp [UInt32.le_iff_toNat_le] at hword
    have hnumber : c.toNat = c.val.toNat := rfl
    rcases hword with ((hword | rfl) | rfl) | rfl
    · omega
    all_goals exact absurd h (by decide)
  · rintro rfl
    exact absurd h (by decide)
  · rintro rfl
    exact absurd h (by decide)

theorem spelling_cons (c : Char) (word : List Char) :
    spelling (c :: word) = written c ++ spelling word := List.flatMap_cons

theorem spelling_append (word more : List Char) :
    spelling (word ++ more) = spelling word ++ spelling more := List.flatMap_append

/-- A word without a colon is its own spelling. -/
theorem spelling_eq_self (h : ':' ∉ word) : spelling word = word := by
  induction word with
  | nil => rfl
  | cons c word ih =>
      rw [List.mem_cons, not_or] at h
      rw [spelling_cons, ih h.2, written, if_neg (Ne.symm h.1)]
      rfl

theorem written_eq_singleton (h : isWordChar c = true) : written c = [c] := by
  unfold written
  rw [if_neg]
  rintro rfl
  exact absurd h (by decide)

/-- Where a word starts no other word ends. -/
theorem IsWord.not_endsWord (h : IsWord word) : ¬EndsWord (spelling word ++ text) := by
  obtain ⟨c, word, rfl⟩ := List.exists_cons_of_ne_nil h.1
  intro hends
  rcases h.2 c List.mem_cons_self with hword | rfl
  · rw [spelling_cons, written_eq_singleton hword] at hends
    rw [(hends c rfl).1] at hword
    cases hword
  · exact (hends '\\' rfl).2 rfl

theorem endsWord_of_isBlankText (hne : gap ≠ []) (hgap : IsBlankText gap) : EndsWord (gap ++ text) := by
  obtain ⟨c, gap, rfl⟩ := List.exists_cons_of_ne_nil hne
  rintro d hd
  obtain rfl : c = d := Option.some.inj hd
  obtain ⟨hword, hescape, -⟩ := not_isWordChar_of_isBlank (hgap c List.mem_cons_self)
  exact ⟨hword, hescape⟩

theorem EndsWord.blanks_append (hgap : IsBlankText gap) (h : EndsWord text) :
    EndsWord (gap ++ text) := by
  by_cases hne : gap = []
  · rwa [hne, List.nil_append]
  · exact endsWord_of_isBlankText hne hgap

theorem endsWord_colon : EndsWord (':' :: text) := by
  intro c hc
  obtain rfl : ':' = c := Option.some.inj hc
  decide

theorem IsBlankText.append {gap' : List Char} (h : IsBlankText gap) (h' : IsBlankText gap') :
    IsBlankText (gap ++ gap') :=
  fun _ hc => (List.mem_append.1 hc).elim (h _) (h' _)

/-- More blanks in front do not matter. -/
theorem Spells.blanks_append (hgap : IsBlankText gap) (h : Spells text ts) : Spells (gap ++ text) ts := by
  cases h with
  | done h => exact .done (hgap.append h)
  | colon h hrest =>
      rw [← List.append_assoc]
      exact .colon (hgap.append h) hrest
  | word h hword hends hrest =>
      rw [← List.append_assoc]
      exact .word (hgap.append h) hword hends hrest

/-! ### What is read -/

theorem tokensWithin_cons (h : c ≠ '\\') : tokensWithin source word (c :: text) =
    if isWordChar c then tokensWithin source (word ++ [c]) text
    else if Text.isBlank c then (tokensWithin source [] text).map (closeWord word)
    else if c = ':' then
      (tokensWithin source [] text).map fun tokens => closeWord word (.colon :: tokens)
    else .error (.unexpectedCharacter c source) := by
  rw [tokensWithin]
  · exact fun _ hc _ => h hc
  · exact h

theorem tokensWithin_colon : tokensWithin source [] (':' :: text) =
    (tokensWithin source [] text).map (Token.colon :: ·) := rfl

theorem tokensWithin_blanks_append (hgap : IsBlankText gap) :
    tokensWithin source [] (gap ++ text) = tokensWithin source [] text := by
  induction gap with
  | nil => rfl
  | cons c gap ih =>
      have hblank := hgap c List.mem_cons_self
      obtain ⟨hword, hescape, -⟩ := not_isWordChar_of_isBlank hblank
      rw [List.cons_append, tokensWithin_cons hescape, hword, if_neg Bool.false_ne_true, if_pos hblank,
        ih fun d hd => hgap d (List.mem_cons_of_mem c hd)]
      exact congrFun Except.map_id _

theorem tokensWithin_written_append (h : IsLetter c) :
    tokensWithin source word (written c ++ text) = tokensWithin source (word ++ [c]) text := by
  rcases h with hword | rfl
  · have hescape : c ≠ '\\' := by
      rintro rfl
      exact absurd hword (by decide)
    rw [written_eq_singleton hword, List.singleton_append, tokensWithin_cons hescape, if_pos hword]
  · rfl

theorem tokensWithin_spelling_append (hmore : ∀ c ∈ more, IsLetter c) :
    tokensWithin source word (spelling more ++ text) = tokensWithin source (word ++ more) text := by
  induction more generalizing word with
  | nil =>
      rw [List.append_nil]
      rfl
  | cons c more ih =>
      rw [List.forall_mem_cons] at hmore
      rw [spelling_cons, List.append_assoc, tokensWithin_written_append hmore.1, ih hmore.2,
        List.append_assoc, List.singleton_append]

/-- Where a word ends the next tokens are read on their own. -/
theorem tokensWithin_of_endsWord (hends : EndsWord text) : tokensWithin source word text =
    (tokensWithin source [] text).map (closeWord word) := by
  cases text with
  | nil => rfl
  | cons c text =>
      obtain ⟨hword, hescape⟩ := hends c rfl
      rw [tokensWithin_cons hescape, tokensWithin_cons hescape, hword, if_neg Bool.false_ne_true,
        if_neg Bool.false_ne_true]
      cases tokensWithin source [] text with
      | error e => split_ifs <;> rfl
      | ok ts => split_ifs <;> rfl

theorem Spells.spelling_append (hmore : ∀ c ∈ more, IsLetter c) (hends : EndsWord text)
    (h : Spells text ts) : Spells (spelling more ++ text) (closeWord more ts) := by
  cases more with
  | nil => exact h
  | cons c more =>
      have hgap : IsBlankText [] := nofun
      exact .word hgap ⟨List.cons_ne_nil c more, hmore⟩ hends h

theorem tokensWithin_of_spells (h : Spells text ts) : tokensWithin source [] text = .ok ts := by
  induction h with
  | @done gap hgap =>
      rw [← List.append_nil gap, tokensWithin_blanks_append hgap]
      rfl
  | colon hgap hrest ih =>
      rw [tokensWithin_blanks_append hgap, tokensWithin_colon, ih]
      rfl
  | @word gap word text ts hgap hword hends hrest ih =>
      rw [tokensWithin_blanks_append hgap, tokensWithin_spelling_append hword.2, List.nil_append,
        tokensWithin_of_endsWord hends, ih]
      show Except.ok (closeWord word ts) = _
      rw [closeWord, if_neg]
      simpa using hword.1

/-- What was read inside of a word: the rest of the word, then the tokens that follow it. -/
theorem exists_spells_of_tokensWithin (h : tokensWithin source word text = .ok ts) :
    ∃ more rest ts', text = spelling more ++ rest ∧ (∀ c ∈ more, IsLetter c) ∧ EndsWord rest ∧
      Spells rest ts' ∧ ts = closeWord (word ++ more) ts' := by
  fun_induction tokensWithin source word text generalizing ts with
  | case1 word =>
      obtain rfl := Except.ok.inj h
      exact ⟨[], [], [], rfl, nofun, nofun, .done nofun, by rw [List.append_nil]⟩
  | case2 word rest ih =>
      obtain ⟨more, rest, ts', rfl, hmore, hends, hspells, rfl⟩ := ih h
      refine ⟨':' :: more, rest, ts', rfl, ?_, hends, hspells, ?_⟩
      · exact List.forall_mem_cons.2 ⟨.inr rfl, hmore⟩
      · rw [List.append_assoc, List.singleton_append]
  | case3 word rest hno => cases h
  | case4 word c rest hno hescape hword ih =>
      obtain ⟨more, rest, ts', rfl, hmore, hends, hspells, rfl⟩ := ih h
      refine ⟨c :: more, rest, ts', ?_, ?_, hends, hspells, ?_⟩
      · rw [spelling_cons, written_eq_singleton hword]
        rfl
      · exact List.forall_mem_cons.2 ⟨.inl hword, hmore⟩
      · rw [List.append_assoc, List.singleton_append]
  | case5 word c rest hno hescape hword hblank ih =>
      obtain ⟨ts, hread, rfl⟩ := map_eq_ok_iff.1 h
      obtain ⟨more, rest, ts', rfl, hmore, hends, hspells, rfl⟩ := ih hread
      have hgap : IsBlankText [c] := List.forall_mem_singleton.2 hblank
      exact ⟨[], _, _, rfl, nofun, endsWord_of_isBlankText (List.cons_ne_nil c []) hgap,
        (hspells.spelling_append hmore hends).blanks_append hgap, by rw [List.append_nil]; rfl⟩
  | case6 word rest hno hescape hword hblank ih =>
      obtain ⟨ts, hread, rfl⟩ := map_eq_ok_iff.1 h
      obtain ⟨more, rest, ts', rfl, hmore, hends, hspells, rfl⟩ := ih hread
      have hgap : IsBlankText [] := nofun
      exact ⟨[], _, _, rfl, nofun, endsWord_colon,
        .colon hgap (hspells.spelling_append hmore hends), by rw [List.append_nil]; rfl⟩
  | case7 word c rest hno hescape hword hblank hcolon => cases h

/-- **What the reader of tokens accepts.** -/
theorem tokensWithin_eq_ok_iff : tokensWithin source [] text = .ok ts ↔ Spells text ts := by
  constructor
  · intro h
    obtain ⟨more, rest, ts', rfl, hmore, hends, hspells, rfl⟩ := exists_spells_of_tokensWithin h
    exact hspells.spelling_append hmore hends
  · exact tokensWithin_of_spells

end DeviceAccess.Rule
