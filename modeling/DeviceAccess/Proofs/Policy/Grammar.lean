import Mathlib.Computability.Language
import DeviceAccess.Policy.Groups
import DeviceAccess.Proofs.Policy.Spelling

/-!
# The language of rules

The texts of rules as a regular language: terms joined by `AND` and `OR`, blanks between any two tokens,
and some blank wherever two words would meet.  The three parts of the reader refuse in turn what is no
token, no sequence of terms and no value; together they accept this language and nothing else
(`Rule.exists_ofText_iff`).

In between stands the language of token lists (`Rule.Sentence`).  A rule's text has one reading as
tokens, so it is enough to compare the two languages by what the tokens are written as.
-/

namespace DeviceAccess.Rule

open Computability

variable {source : String} {word value connective text rest after : List Char} {ts : List Token}

/-! ### The language -/

/-- A character of a thing's name as rules write it: an ASCII letter or digit, `_`, `-`, or `\:` for a
colon. -/
def itemTexts : Language Char :=
  {text | text = ['\\', ':'] ∨ ∃ c, (c.isAlphanum = true ∨ c = '_' ∨ c = '-') ∧ text = [c]}

/-- Items with or without a `*` at the end, or a lone `*`. -/
def valueTexts : Language Char := itemTexts * itemTexts∗ * (1 + {['*']}) + {['*']}

/-- Any number of blanks. -/
def blankTexts : Language Char := {text | IsBlankText text}

/-- One blank or more. -/
def gapTexts : Language Char := {text | text ≠ [] ∧ IsBlankText text}

/-- The keyword, a colon and a value. -/
def termTexts : Language Char :=
  {"thingName".toList} * blankTexts * {[':']} * blankTexts * valueTexts

/-- What stands between two terms. -/
def joinTexts : Language Char := gapTexts * {"AND".toList, "OR".toList} * gapTexts

/-- A term and any number of terms that are joined to it. -/
def sequenceTexts : Language Char := termTexts * (joinTexts * termTexts)∗

/-- The texts of rules. -/
def ruleTexts : Language Char := blankTexts * sequenceTexts * blankTexts

/-! ### Lists of tokens -/

/-- A value has no `*` but one at its end. -/
def IsPattern (value : List Char) : Prop := ∃ body, '*' ∉ body ∧ (value = body ∨ value = body ++ ['*'])

/-- The words that join two terms. -/
def IsConnective (word : List Char) : Prop := word = "AND".toList ∨ word = "OR".toList

/-- The tokens of a sequence of terms. -/
inductive Sentence : List Token → Prop where
  | single {value : List Char} (hvalue : IsPattern value) :
      Sentence [.word "thingName".toList, .colon, .word value]
  | joined {value connective : List Char} {ts : List Token} (hvalue : IsPattern value)
      (hconnective : IsConnective connective) (hrest : Sentence ts) :
      Sentence (.word "thingName".toList :: .colon :: .word value :: .word connective :: ts)

theorem exists_valuePattern_iff : (∃ glob, valuePattern value = .ok glob) ↔ IsPattern value := by
  constructor
  · rintro ⟨glob, h⟩
    unfold valuePattern at h
    by_cases hlast : value.getLast? = some '*'
    · obtain ⟨body, rfl⟩ := List.getLast?_eq_some_iff.1 hlast
      refine ⟨body, fun hmem => ?_, .inr rfl⟩
      simp [hmem] at h
    · refine ⟨value, fun hmem => ?_, .inl rfl⟩
      simp [hlast, hmem] at h
  · rintro ⟨body, hno, rfl | rfl⟩
    · have hlast : value.getLast? ≠ some '*' := fun h => hno (List.mem_of_getLast? h)
      exact ⟨_, by simp only [valuePattern, if_neg hlast]; rw [if_neg (by simpa using hno)]⟩
    · exact ⟨_, by simp [valuePattern, hno]; rfl⟩

/-- What it takes to read a term. -/
theorem term_eq_ok_iff {glob : Glob} {after : List Token} : term ts = .ok (glob, after) ↔
    ∃ value, ts = .word "thingName".toList :: .colon :: .word value :: after ∧
      valuePattern value = .ok glob := by
  constructor
  · intro h
    unfold term at h
    split at h
    · next keyword rest =>
        split at h
        · next hkeyword =>
            subst hkeyword
            split at h
            · next value rest' =>
                obtain ⟨glob, hglob, hpair⟩ := map_eq_ok_iff.1 h
                obtain ⟨rfl, rfl⟩ := Prod.mk.inj hpair
                exact ⟨value, rfl, hglob⟩
            · cases h
            · cases h
        · cases h
    · cases h
  · rintro ⟨value, rfl, hglob⟩
    exact map_eq_ok_iff.2 ⟨glob, hglob, rfl⟩

theorem exists_term_of_sentence (h : Sentence ts) : ∃ glob after, term ts = .ok (glob, after) := by
  cases h with
  | single hvalue =>
      obtain ⟨glob, hglob⟩ := exists_valuePattern_iff.2 hvalue
      exact ⟨glob, _, term_eq_ok_iff.2 ⟨_, rfl, hglob⟩⟩
  | joined hvalue _ _ =>
      obtain ⟨glob, hglob⟩ := exists_valuePattern_iff.2 hvalue
      exact ⟨glob, _, term_eq_ok_iff.2 ⟨_, rfl, hglob⟩⟩

/-- After its first term a sequence ends, or goes on behind a connective. -/
theorem sentence_iff_of_term {glob : Glob} {after : List Token} (h : term ts = .ok (glob, after)) :
    Sentence ts ↔ after = [] ∨ ∃ connective ts', after = .word connective :: ts' ∧
      IsConnective connective ∧ Sentence ts' := by
  obtain ⟨value, rfl, hglob⟩ := term_eq_ok_iff.1 h
  have hvalue : IsPattern value := exists_valuePattern_iff.1 ⟨glob, hglob⟩
  constructor
  · intro h
    cases h with
    | single _ => exact .inl rfl
    | joined _ hconnective hrest => exact .inr ⟨_, _, rfl, hconnective, hrest⟩
  · rintro (rfl | ⟨connective, ts', rfl, hconnective, hrest⟩)
    · exact .single hvalue
    · exact .joined hvalue hconnective hrest

theorem sentence_iff_of_connective {glob : Glob} {after : List Token}
    (h : term ts = .ok (glob, .word connective :: after)) (hconnective : IsConnective connective) :
    Sentence ts ↔ Sentence after := by
  rw [sentence_iff_of_term h]
  constructor
  · rintro (hnil | ⟨_, _, heq, -, hrest⟩)
    · cases hnil
    · cases heq
      exact hrest
  · exact fun hrest => .inr ⟨_, _, rfl, hconnective, hrest⟩

/-- **What the reader of terms accepts.** -/
theorem exists_alternativesAfter_iff (pending : List Glob) :
    (∃ alternatives, alternativesAfter source pending ts = .ok alternatives) ↔ Sentence ts := by
  fun_induction alternativesAfter source pending ts with
  | case1 pending tokens e hterm =>
      refine iff_of_false nofun fun h => ?_
      obtain ⟨glob, after, hok⟩ := exists_term_of_sentence h
      rw [hterm] at hok
      cases hok
  | case2 pending tokens glob terms hterm =>
      exact iff_of_true ⟨_, rfl⟩ ((sentence_iff_of_term hterm).2 (.inl rfl))
  | case3 pending tokens glob terms after hterm _ ih =>
      rw [ih, sentence_iff_of_connective hterm (.inl rfl)]
  | case4 pending tokens glob terms after hterm hand _ ih =>
      rw [sentence_iff_of_connective hterm (.inr rfl), ← ih]
      constructor
      · rintro ⟨alternatives, h⟩
        obtain ⟨others, hothers, -⟩ := map_eq_ok_iff.1 h
        exact ⟨others, hothers⟩
      · rintro ⟨others, hothers⟩
        exact ⟨_, map_eq_ok_iff.2 ⟨others, hothers, rfl⟩⟩
  | case5 pending tokens glob t after hterm hand hor _ =>
      refine iff_of_false nofun fun h => ?_
      rcases (sentence_iff_of_term hterm).1 h with hnil | ⟨_, _, heq, rfl | rfl, -⟩
      · cases hnil
      · exact hand (List.cons.inj heq).1
      · exact hor (List.cons.inj heq).1

/-! ### Values -/

theorem mem_itemTexts_iff : text ∈ itemTexts ↔ ∃ c, IsLetter c ∧ c ≠ '*' ∧ written c = text := by
  constructor
  · rintro (rfl | ⟨c, hc, rfl⟩)
    · exact ⟨':', .inr rfl, by decide, rfl⟩
    · have hword : isWordChar c = true := by
        simp only [isWordChar, Bool.or_eq_true, beq_iff_eq]
        tauto
      refine ⟨c, .inl hword, ?_, written_eq_singleton hword⟩
      rintro rfl
      exact absurd hc (by decide)
  · rintro ⟨c, hword | rfl, hstar, rfl⟩
    · refine .inr ⟨c, ?_, written_eq_singleton hword⟩
      simp only [isWordChar, Bool.or_eq_true, beq_iff_eq] at hword
      tauto
    · exact .inl rfl

theorem mem_kstar_itemTexts_iff : text ∈ itemTexts∗ ↔
    ∃ body, (∀ c ∈ body, IsLetter c) ∧ '*' ∉ body ∧ spelling body = text := by
  constructor
  · rintro ⟨items, rfl, hitems⟩
    induction items with
    | nil => exact ⟨[], nofun, nofun, rfl⟩
    | cons item items ih =>
        rw [List.forall_mem_cons] at hitems
        obtain ⟨c, hc, hstar, rfl⟩ := mem_itemTexts_iff.1 hitems.1
        obtain ⟨body, hbody, hno, hspelling⟩ := ih hitems.2
        refine ⟨c :: body, List.forall_mem_cons.2 ⟨hc, hbody⟩, ?_, ?_⟩
        · exact List.not_mem_cons_of_ne_of_not_mem (Ne.symm hstar) hno
        · rw [spelling_cons, hspelling, List.flatten_cons]
  · rintro ⟨body, hbody, hno, rfl⟩
    refine ⟨body.map written, List.flatMap_def, fun item hitem => ?_⟩
    obtain ⟨c, hc, rfl⟩ := List.mem_map.1 hitem
    exact mem_itemTexts_iff.2 ⟨c, hbody c hc, fun hstar => hno (hstar ▸ hc), rfl⟩

theorem mem_items_iff : text ∈ itemTexts * itemTexts∗ ↔
    ∃ body, IsWord body ∧ '*' ∉ body ∧ spelling body = text := by
  constructor
  · rintro ⟨item, hitem, items, hitems, rfl⟩
    obtain ⟨c, hc, hstar, rfl⟩ := mem_itemTexts_iff.1 hitem
    obtain ⟨body, hbody, hno, rfl⟩ := mem_kstar_itemTexts_iff.1 hitems
    exact ⟨c :: body, ⟨List.cons_ne_nil c body, List.forall_mem_cons.2 ⟨hc, hbody⟩⟩,
      List.not_mem_cons_of_ne_of_not_mem (Ne.symm hstar) hno, spelling_cons c body⟩
  · rintro ⟨body, ⟨hne, hletters⟩, hno, rfl⟩
    obtain ⟨c, body, rfl⟩ := List.exists_cons_of_ne_nil hne
    rw [List.forall_mem_cons] at hletters
    rw [List.mem_cons, not_or] at hno
    rw [spelling_cons]
    exact Language.append_mem_mul
      (mem_itemTexts_iff.2 ⟨c, hletters.1, Ne.symm hno.1, rfl⟩)
      (mem_kstar_itemTexts_iff.2 ⟨body, hletters.2, hno.2, rfl⟩)

/-- Values are the texts of words that have a `*` at most at their end. -/
theorem mem_valueTexts_iff : text ∈ valueTexts ↔
    ∃ value, IsWord value ∧ IsPattern value ∧ spelling value = text := by
  have hstar : IsLetter '*' := .inl (by decide)
  constructor
  · rintro (⟨items, hitems, after, hafter, rfl⟩ | rfl)
    · obtain ⟨body, hword, hno, rfl⟩ := mem_items_iff.1 hitems
      rcases hafter with rfl | rfl
      · exact ⟨body, hword, ⟨body, hno, .inl rfl⟩, (List.append_nil _).symm⟩
      · refine ⟨body ++ ['*'], ⟨by simp, ?_⟩, ⟨body, hno, .inr rfl⟩, spelling_append body ['*']⟩
        exact List.forall_mem_append.2 ⟨hword.2, List.forall_mem_singleton.2 hstar⟩
    · exact ⟨['*'], ⟨List.cons_ne_nil _ _, List.forall_mem_singleton.2 hstar⟩, ⟨[], nofun, .inr rfl⟩, rfl⟩
  · rintro ⟨value, hword, ⟨body, hno, rfl | rfl⟩, rfl⟩
    · rw [← List.append_nil (spelling value)]
      exact .inl (Language.append_mem_mul (mem_items_iff.2 ⟨value, hword, hno, rfl⟩) (.inl rfl))
    · rw [spelling_append]
      rcases body with _ | ⟨c, body⟩
      · exact .inr rfl
      · refine .inl (Language.append_mem_mul (mem_items_iff.2 ⟨c :: body, ⟨?_, ?_⟩, hno, rfl⟩) (.inr rfl))
        · exact List.cons_ne_nil c body
        · exact (List.forall_mem_append.1 hword.2).1

/-! ### Terms and sequences of terms -/

theorem isWord_of_all (hne : word ≠ []) (h : word.all isWordChar = true) : IsWord word :=
  ⟨hne, fun c hc => .inl (List.all_eq_true.1 h c hc)⟩

theorem isWord_thingName : IsWord "thingName".toList := isWord_of_all (by decide) (by decide)

/-- Connectives are words that are written as they are. -/
theorem IsConnective.isWord (h : IsConnective connective) :
    IsWord connective ∧ spelling connective = connective := by
  rcases h with rfl | rfl
  · exact ⟨isWord_of_all (by decide) (by decide), spelling_eq_self (by decide)⟩
  · exact ⟨isWord_of_all (by decide) (by decide), spelling_eq_self (by decide)⟩

theorem mem_termTexts_iff : text ∈ termTexts ↔
    ∃ gap ∈ blankTexts, ∃ gap' ∈ blankTexts, ∃ valueText ∈ valueTexts,
      text = "thingName".toList ++ (gap ++ ':' :: (gap' ++ valueText)) := by
  constructor
  · rintro ⟨_, ⟨_, ⟨_, ⟨_, rfl, gap, hgap, rfl⟩, _, rfl, rfl⟩, gap', hgap', rfl⟩, valueText, hvalue, rfl⟩
    refine ⟨gap, hgap, gap', hgap', valueText, hvalue, ?_⟩
    simp only [List.append_assoc, List.cons_append, List.nil_append]
  · rintro ⟨gap, hgap, gap', hgap', valueText, hvalue, rfl⟩
    have hkeyword := Language.append_mem_mul (Set.mem_singleton "thingName".toList) hgap
    have hcolon := Language.append_mem_mul hkeyword (Set.mem_singleton [':'])
    have hterm : "thingName".toList ++ gap ++ [':'] ++ gap' ++ valueText ∈ termTexts :=
      Language.append_mem_mul (Language.append_mem_mul hcolon hgap') hvalue
    simpa only [List.append_assoc, List.cons_append, List.nil_append] using hterm

theorem mem_joinTexts_iff : text ∈ joinTexts ↔ ∃ gap ∈ gapTexts, ∃ connective, IsConnective connective ∧
    ∃ gap' ∈ gapTexts, text = gap ++ (connective ++ gap') := by
  constructor
  · rintro ⟨_, ⟨gap, hgap, connective, hconnective, rfl⟩, gap', hgap', rfl⟩
    exact ⟨gap, hgap, connective, hconnective, gap', hgap', List.append_assoc ..⟩
  · rintro ⟨gap, hgap, connective, hconnective, gap', hgap', rfl⟩
    rw [← List.append_assoc]
    exact Language.append_mem_mul (Language.append_mem_mul hgap hconnective) hgap'

/-- How a term is written in front of what follows it. -/
theorem spells_term {gap gap' : List Char} (hgap : IsBlankText gap) (hgap' : IsBlankText gap')
    (hword : IsWord value) (hends : EndsWord rest) (hrest : Spells rest ts) :
    Spells ("thingName".toList ++ (gap ++ ':' :: (gap' ++ (spelling value ++ rest))))
      (.word "thingName".toList :: .colon :: .word value :: ts) := by
  have hcolon := Spells.colon hgap (.word hgap' hword hends hrest)
  have hnone : IsBlankText [] := nofun
  have hterm := Spells.word hnone isWord_thingName (endsWord_colon.blanks_append hgap) hcolon
  rwa [spelling_eq_self (by decide)] at hterm

/-- A term that ends is read as three tokens. -/
theorem exists_spells_of_mem_termTexts (h : text ∈ termTexts) (hends : EndsWord rest)
    (hrest : Spells rest ts) : ∃ value, IsPattern value ∧
      Spells (text ++ rest) (.word "thingName".toList :: .colon :: .word value :: ts) := by
  obtain ⟨gap, hgap, gap', hgap', _, hvalue, rfl⟩ := mem_termTexts_iff.1 h
  obtain ⟨value, hword, hpattern, rfl⟩ := mem_valueTexts_iff.1 hvalue
  refine ⟨value, hpattern, ?_⟩
  simpa only [List.append_assoc, List.cons_append] using spells_term hgap hgap' hword hends hrest

/-- What is read as a term is one, behind some blanks. -/
theorem exists_term_of_spells
    (h : Spells text (.word "thingName".toList :: .colon :: .word value :: ts))
    (hpattern : IsPattern value) : ∃ gap ∈ blankTexts, ∃ t ∈ termTexts, ∃ rest,
      text = gap ++ (t ++ rest) ∧ EndsWord rest ∧ Spells rest ts := by
  cases h with
  | @word gap _ _ _ hgap _ _ h =>
      cases h with
      | @colon gap₁ _ _ hgap₁ h =>
          cases h with
          | @word gap₂ _ rest _ hgap₂ hword hends hrest =>
              have hvalue := mem_valueTexts_iff.2 ⟨value, hword, hpattern, rfl⟩
              have hterm := mem_termTexts_iff.2 ⟨gap₁, hgap₁, gap₂, hgap₂, _, hvalue, rfl⟩
              refine ⟨gap, hgap, _, hterm, rest, ?_, hends, hrest⟩
              rw [spelling_eq_self (by decide)]
              simp only [List.append_assoc, List.cons_append]

/-- Behind a sequence more terms can be joined. -/
theorem append_mem_sequenceTexts {t join sequence : List Char} (ht : t ∈ termTexts)
    (hjoin : join ∈ joinTexts) (hsequence : sequence ∈ sequenceTexts) :
    t ++ (join ++ sequence) ∈ sequenceTexts := by
  obtain ⟨t', ht', others, hothers, rfl⟩ := hsequence
  refine Language.append_mem_mul ht ?_
  rw [← Language.one_add_self_mul_kstar_eq_kstar, ← List.append_assoc]
  exact .inr (Language.append_mem_mul (Language.append_mem_mul hjoin ht') hothers)

theorem not_endsWord_of_mem_sequenceTexts (h : text ∈ sequenceTexts) : ¬EndsWord (text ++ rest) := by
  obtain ⟨t, ht, joined, -, rfl⟩ := h
  obtain ⟨gap, -, gap', -, valueText, -, rfl⟩ := mem_termTexts_iff.1 ht
  intro hends
  exact absurd (hends 't' rfl).1 (by decide)

/-- Text that is read as a sequence of terms is one, between blanks. -/
theorem exists_sequence_of_spells (h : Sentence ts) (hspells : Spells text ts) :
    ∃ gap ∈ blankTexts, ∃ sequence ∈ sequenceTexts, ∃ gap' ∈ blankTexts,
      text = gap ++ (sequence ++ gap') := by
  induction h generalizing text with
  | single hpattern =>
      obtain ⟨gap, hgap, t, ht, rest, rfl, -, hrest⟩ := exists_term_of_spells hspells hpattern
      cases hrest with
      | done hgap' =>
          have hsequence := Language.append_mem_mul ht (Language.nil_mem_kstar (joinTexts * termTexts))
          rw [List.append_nil] at hsequence
          exact ⟨gap, hgap, t, hsequence, rest, hgap', rfl⟩
  | @joined value connective ts hpattern hconnective hsentence ih =>
      obtain ⟨gap, hgap, t, ht, rest, rfl, hends, hrest⟩ := exists_term_of_spells hspells hpattern
      cases hrest with
      | @word gap₁ _ after _ hgap₁ hword hends' hafter =>
          obtain ⟨gap₂, hgap₂, sequence, hsequence, gap', hgap', rfl⟩ := ih hafter
          -- the words on both sides of a blank text that is empty would be one word
          have hne₁ : gap₁ ≠ [] := by
            rintro rfl
            exact hword.not_endsWord hends
          have hne₂ : gap₂ ≠ [] := by
            rintro rfl
            exact not_endsWord_of_mem_sequenceTexts hsequence hends'
          have hjoin := mem_joinTexts_iff.2
            ⟨gap₁, ⟨hne₁, hgap₁⟩, connective, hconnective, gap₂, ⟨hne₂, hgap₂⟩, rfl⟩
          refine ⟨gap, hgap, _, append_mem_sequenceTexts ht hjoin hsequence, gap', hgap', ?_⟩
          rw [hconnective.isWord.2]
          simp only [List.append_assoc]

/-- A sequence of terms before blanks is read as one. -/
theorem exists_spells_of_mem_sequenceTexts {gap : List Char} (h : text ∈ sequenceTexts)
    (hgap : gap ∈ blankTexts) : ∃ ts, Sentence ts ∧ Spells (text ++ gap) ts := by
  obtain ⟨t, ht, _, ⟨joined, rfl, hjoined⟩, rfl⟩ := h
  induction joined generalizing t with
  | nil =>
      have hends : EndsWord (gap ++ []) := EndsWord.blanks_append hgap nofun
      rw [List.append_nil] at hends
      obtain ⟨value, hpattern, hspells⟩ := exists_spells_of_mem_termTexts ht hends (.done hgap)
      exact ⟨_, .single hpattern, by simpa using hspells⟩
  | cons first joined ih =>
      rw [List.forall_mem_cons] at hjoined
      obtain ⟨_, hjoin, t', ht', rfl⟩ := hjoined.1
      obtain ⟨gap₁, hgap₁, connective, hconnective, gap₂, hgap₂, rfl⟩ := mem_joinTexts_iff.1 hjoin
      obtain ⟨ts, hsentence, hspells⟩ := ih t' ht' hjoined.2
      have hjoined := Spells.word hgap₁.2 hconnective.isWord.1
        (endsWord_of_isBlankText hgap₂.1 hgap₂.2) (hspells.blanks_append hgap₂.2)
      rw [hconnective.isWord.2] at hjoined
      obtain ⟨value, hpattern, hterm⟩ := exists_spells_of_mem_termTexts ht
        (endsWord_of_isBlankText hgap₁.1 hgap₁.2) hjoined
      exact ⟨_, .joined hpattern hconnective hsentence, by simpa using hterm⟩

/-- Texts of rules are those that write a sequence of terms. -/
theorem mem_ruleTexts_iff : text ∈ ruleTexts ↔ ∃ ts, Spells text ts ∧ Sentence ts := by
  constructor
  · rintro ⟨_, ⟨gap, hgap, sequence, hsequence, rfl⟩, gap', hgap', rfl⟩
    obtain ⟨ts, hsentence, hspells⟩ := exists_spells_of_mem_sequenceTexts hsequence hgap'
    refine ⟨ts, ?_, hsentence⟩
    show Spells (gap ++ sequence ++ gap') ts
    rw [List.append_assoc]
    exact hspells.blanks_append hgap
  · rintro ⟨ts, hspells, hsentence⟩
    obtain ⟨gap, hgap, sequence, hsequence, gap', hgap', rfl⟩ :=
      exists_sequence_of_spells hsentence hspells
    rw [← List.append_assoc]
    exact Language.append_mem_mul (Language.append_mem_mul hgap hsequence) hgap'

/-! ### Rules -/

theorem exists_parse_iff : (∃ r, parse source = .ok r) ↔ source.toList ∈ ruleTexts := by
  rw [mem_ruleTexts_iff]
  constructor
  · rintro ⟨r, h⟩
    unfold parse at h
    obtain ⟨ts, hread, h⟩ := bind_eq_ok_iff.1 h
    obtain ⟨alternatives, hread', -⟩ := bind_eq_ok_iff.1 h
    exact ⟨ts, tokensWithin_eq_ok_iff.1 hread, (exists_alternativesAfter_iff []).1 ⟨_, hread'⟩⟩
  · rintro ⟨ts, hspells, hsentence⟩
    obtain ⟨alternatives, hread⟩ := (exists_alternativesAfter_iff []).2 hsentence
    exact ⟨⟨source, alternatives⟩, bind_eq_ok_iff.2
      ⟨ts, tokensWithin_eq_ok_iff.2 hspells, bind_eq_ok_iff.2 ⟨alternatives, hread, rfl⟩⟩⟩

/-- **The texts that are rules.**  A text is accepted exactly if it is in the language of rules: terms
joined by `AND` and `OR`, blanks wherever one likes between two tokens and some between two words, and in
each term the keyword, a colon and a value.  Every other text is refused as a fault of the policy. -/
theorem exists_ofText_iff (source : String) :
    ((∃ r, ofText source = .ok r) ↔ source.toList ∈ ruleTexts) ∧
    ((∃ reason, ofText source = .error (.policy reason)) ↔ source.toList ∉ ruleTexts) := by
  rw [← exists_parse_iff]
  unfold ofText
  cases parse source with
  | error e =>
      exact ⟨iff_of_false nofun nofun, iff_of_true ⟨e.message, rfl⟩ nofun⟩
  | ok r =>
      exact ⟨iff_of_true ⟨r, rfl⟩ ⟨r, rfl⟩, iff_of_false nofun fun h => h ⟨r, rfl⟩⟩

/-- Keywords can be values, and words that meet are one word. -/
example :
    (parse "thingName :AND AND\tthingName:thi\\:ng*").isOk = true ∧
    (parse "thingName: a ORthingName: b").isOk = false := by
  decide +kernel

end DeviceAccess.Rule
