import DeviceAccess.Proofs.Policy.Denotation

/-!
# Granted topic filters

A topic is a path of levels, and a topic filter stands for a set of topics: `+` as a level stands
for any one level, `#` as the last level for all remaining ones, also for none.  The table of
resource patterns reads filters character by character and compares them with filters as readily
as with topics.  `covers_iff_levelsMatch` says what it decides in terms of levels, and
`covers_iff_same_and_matches` that of all requests for topics just those are covered that have the
filter's service and kind and a topic it stands for.  By `covers_topic_of_covers_filter` a covered
request for a filter never reaches beyond the grant: every topic the request stands for is covered
too.
-/

namespace DeviceAccess

namespace Topic

/-! ### Levels, filters and topics -/

/-- The levels of a topic or filter, between its `/`. -/
def levels (text : List Char) : List (List Char) := text.splitOn '/'

/-- `+` and `#` stand in the level only if they are all of it. -/
def IsFilterLevel (level : List Char) : Prop :=
  ('+' ∈ level → level = ['+']) ∧ ('#' ∈ level → level = ['#'])

/-- `+` and `#` stand only as whole levels, and `#` only as the last one. -/
def IsFilter (filter : List Char) : Prop :=
  (∀ level ∈ levels filter, IsFilterLevel level) ∧ ['#'] ∉ (levels filter).dropLast

/-- A topic that a message can be sent to. -/
def IsTopic (topic : List Char) : Prop := topic ≠ [] ∧ '+' ∉ topic ∧ '#' ∉ topic

instance : DecidablePred IsFilterLevel := fun _ => inferInstanceAs (Decidable (_ ∧ _))
instance : DecidablePred IsFilter := fun _ => inferInstanceAs (Decidable (_ ∧ _))
instance : DecidablePred IsTopic := fun _ => inferInstanceAs (Decidable (_ ∧ _))

/-- Levels match the levels of a filter, where `+` stands for one level of a kind. -/
inductive LevelsMatch (kind : List Char → Prop) : List (List Char) → List (List Char) → Prop
  | done : LevelsMatch kind [] []
  | rest (levels : List (List Char)) : LevelsMatch kind [['#']] levels
  | any {level : List Char} {filter levels : List (List Char)} :
      kind level → LevelsMatch kind filter levels →
      LevelsMatch kind (['+'] :: filter) (level :: levels)
  | same {level : List Char} {filter levels : List (List Char)} :
      level ≠ ['#'] → LevelsMatch kind filter levels →
      LevelsMatch kind (level :: filter) (level :: levels)

/-- The filter stands for the topic. -/
def Matches (filter topic : List Char) : Prop :=
  LevelsMatch (fun _ => True) (levels filter) (levels topic)

theorem levels_ne_nil (text : List Char) : levels text ≠ [] := List.splitOnP_ne_nil _ text

theorem levels_of_not_mem {level : List Char} (h : '/' ∉ level) : levels level = [level] := by
  unfold levels
  rw [List.splitOn_eq_splitOnP, List.splitOnP_eq_singleton]
  intro c hc
  rw [beq_eq_false_iff_ne]
  rintro rfl
  exact h hc

theorem levels_append_cons {level : List Char} (h : '/' ∉ level) (text : List Char) :
    levels (level ++ '/' :: text) = level :: levels text := by
  have hlevel := levels_of_not_mem h
  unfold levels at hlevel ⊢
  rw [List.splitOn_eq_splitOnP] at hlevel ⊢
  rw [List.splitOnP_append_cons _ _ (by simp), hlevel]
  rfl

/-- A text is one level, or a level, a `/` and a text. -/
theorem exists_level (text : List Char) :
    '/' ∉ text ∨ ∃ level rest, '/' ∉ level ∧ text = level ++ '/' :: rest := by
  by_cases h : '/' ∈ text
  · obtain ⟨level, rest, htext, hlevel⟩ := List.eq_append_cons_of_mem h
    exact .inr ⟨level, rest, hlevel, htext⟩
  · exact .inl h

theorem mem_of_mem_levels {text level : List Char} (h : level ∈ levels text) {c : Char}
    (hc : c ∈ level) : c ∈ text := by
  induction hn : text.length using Nat.strongRecOn generalizing text with
  | ind n ih =>
      subst hn
      rcases exists_level text with hno | ⟨first, rest, hfirst, rfl⟩
      · rw [levels_of_not_mem hno, List.mem_singleton] at h
        rwa [← h]
      · rw [levels_append_cons hfirst, List.mem_cons] at h
        rw [List.mem_append, List.mem_cons]
        rcases h with rfl | h
        · exact .inl hc
        · refine .inr (.inr (ih rest.length ?_ h rfl))
          rw [List.length_append, List.length_cons]
          omega

/-! ### Filters, level by level -/

theorem isFilter_of_not_mem {level : List Char} (h : '/' ∉ level) :
    IsFilter level ↔ IsFilterLevel level := by
  simp [IsFilter, levels_of_not_mem h]

theorem isFilter_append_cons {level : List Char} (h : '/' ∉ level) (rest : List Char) :
    IsFilter (level ++ '/' :: rest) ↔ IsFilterLevel level ∧ level ≠ ['#'] ∧ IsFilter rest := by
  unfold IsFilter
  rw [levels_append_cons h, List.dropLast_cons_of_ne_nil (levels_ne_nil rest), List.mem_cons,
    not_or, List.forall_mem_cons]
  constructor
  · rintro ⟨⟨hlevel, hall⟩, hne, hlast⟩
    exact ⟨hlevel, fun e => hne e.symm, hall, hlast⟩
  · rintro ⟨hlevel, hne, hall, hlast⟩
    exact ⟨⟨hlevel, hall⟩, fun e => hne e.symm, hlast⟩

/-- Induction on a filter, one level at a time from the front. -/
theorem IsFilter.induction {motive : List Char → Prop}
    (single : ∀ level, '/' ∉ level → IsFilterLevel level → motive level)
    (cons : ∀ level rest, '/' ∉ level → IsFilterLevel level → level ≠ ['#'] → motive rest →
      motive (level ++ '/' :: rest))
    {filter : List Char} (h : IsFilter filter) : motive filter := by
  induction hn : filter.length using Nat.strongRecOn generalizing filter with
  | ind n ih =>
      subst hn
      rcases exists_level filter with hno | ⟨level, rest, hlevel, rfl⟩
      · exact single filter hno ((isFilter_of_not_mem hno).1 h)
      · obtain ⟨hok, hne, hrest⟩ := (isFilter_append_cons hlevel rest).1 h
        refine cons level rest hlevel hok hne (ih rest.length ?_ hrest rfl)
        rw [List.length_append, List.length_cons]
        omega

/-! ### Matching, level by level -/

theorem levelsMatch_nil_iff {kind : List Char → Prop} {levels : List (List Char)} :
    LevelsMatch kind [] levels ↔ levels = [] := by
  constructor
  · intro h
    cases h
    rfl
  · rintro rfl
    exact .done

theorem levelsMatch_nil_right_iff {kind : List Char → Prop} {filter : List (List Char)} :
    LevelsMatch kind filter [] ↔ filter = [] ∨ filter = [['#']] := by
  constructor
  · intro h
    cases h with
    | done => exact .inl rfl
    | rest => exact .inr rfl
  · rintro (rfl | rfl)
    · exact .done
    · exact .rest []

theorem levelsMatch_cons_iff {kind : List Char → Prop} {first level : List Char}
    {filter levels : List (List Char)} (h : first ≠ ['#']) :
    LevelsMatch kind (first :: filter) (level :: levels) ↔
      ((first = ['+'] ∧ kind level) ∨ first = level) ∧ LevelsMatch kind filter levels := by
  constructor
  · intro hm
    cases hm with
    | rest => exact absurd rfl h
    | any hkind hm => exact ⟨.inl ⟨rfl, hkind⟩, hm⟩
    | same _ hm => exact ⟨.inr rfl, hm⟩
  · rintro ⟨⟨rfl, hkind⟩ | rfl, hm⟩
    · exact .any hkind hm
    · exact .same h hm

/-- A wider kind of levels that `+` stands for keeps every match. -/
theorem LevelsMatch.mono {kind kind' : List Char → Prop} {filter levels : List (List Char)}
    (hm : LevelsMatch kind filter levels) (h : ∀ level ∈ levels, kind level → kind' level) :
    LevelsMatch kind' filter levels := by
  induction hm with
  | done => exact .done
  | rest levels => exact .rest levels
  | any hlevel _ ih =>
      rw [List.forall_mem_cons] at h
      exact .any (h.1 hlevel) (ih h.2)
  | same hlevel _ ih =>
      rw [List.forall_mem_cons] at h
      exact .same hlevel (ih h.2)

/-- **Matching composes.**  If the levels of a filter `g` match those of a filter `f` whose `+`
does not stand for a `#`, then whatever matches `g` and has no level `#` matches `f`. -/
theorem LevelsMatch.trans {kind : List Char → Prop} {f g topic : List (List Char)}
    (hfg : LevelsMatch (· ≠ ['#']) f g) (hg : LevelsMatch kind g topic)
    (htopic : ['#'] ∉ topic) : LevelsMatch (· ≠ ['#']) f topic := by
  induction hfg generalizing topic with
  | done =>
      rw [levelsMatch_nil_iff.1 hg]
      exact .done
  | rest levels => exact .rest topic
  | @any level filter levels hlevel _ ih =>
      cases hg with
      | rest => exact absurd rfl hlevel
      | any _ hg =>
          rw [List.mem_cons, not_or] at htopic
          exact .any (fun e => htopic.1 e.symm) (ih hg htopic.2)
      | same _ hg =>
          rw [List.mem_cons, not_or] at htopic
          exact .any hlevel (ih hg htopic.2)
  | @same level filter levels hlevel _ ih =>
      cases hg with
      | rest => exact absurd rfl hlevel
      | any _ hg =>
          rw [List.mem_cons, not_or] at htopic
          exact .any (fun e => htopic.1 e.symm) (ih hg htopic.2)
      | same _ hg =>
          rw [List.mem_cons, not_or] at htopic
          exact .same hlevel (ih hg htopic.2)

/-- A filter matches itself as a text. -/
theorem IsFilter.levelsMatch_self {filter : List Char} (h : IsFilter filter)
    (kind : List Char → Prop) : LevelsMatch kind (levels filter) (levels filter) := by
  refine IsFilter.induction (motive := fun f => LevelsMatch kind (levels f) (levels f)) ?_ ?_ h
  · intro level hno _
    rw [levels_of_not_mem hno]
    by_cases hrest : level = ['#']
    · rw [hrest]
      exact .rest _
    · exact .same hrest .done
  · intro level rest hno _ hne ih
    rw [levels_append_cons hno]
    exact .same hne ih

end Topic

namespace ResourcePattern

open Topic

/-! ### The tokens of a filter -/

/-- Characters without a meaning of their own in patterns. -/
def IsPlain (text : List Char) : Prop := ∀ c ∈ text, c ≠ '*' ∧ c ≠ '+' ∧ c ≠ '#'

/-- What stands before a text that follows `c :: head`. -/
theorem getLast?_cons_or (c : Char) (head : List Char) (before : Option Char) :
    (c :: head).getLast?.or before = head.getLast?.or (some c) := by
  rw [List.getLast?_cons]
  cases head.getLast? <;> rfl

theorem tokensAfter_plain_append {plain : List Char} (h : IsPlain plain) (before : Option Char)
    (text : List Char) : tokensAfter before (plain ++ text) =
      plain.map .char ++ tokensAfter (plain.getLast?.or before) text := by
  induction plain generalizing before with
  | nil => rfl
  | cons c plain ih =>
      obtain ⟨⟨hstar, hplus, hhash⟩, hplain⟩ := List.forall_mem_cons.1 h
      rw [List.cons_append, tokensAfter, ih hplain, getLast?_cons_or]
      simp [hstar, hplus, hhash]

/-- The tokens of a level that is not `#`. -/
def levelTokens (level : List Char) : List Token :=
  if level = ['+'] then [.level] else level.map .char

theorem isPlain_of_isFilterLevel {level : List Char} (h : IsFilterLevel level) (hstar : '*' ∉ level)
    (hplus : level ≠ ['+']) (hhash : level ≠ ['#']) : IsPlain level := by
  intro c hc
  refine ⟨?_, ?_, ?_⟩
  · rintro rfl
    exact hstar hc
  · rintro rfl
    exact hplus (h.1 hc)
  · rintro rfl
    exact hhash (h.2 hc)

/-- A level at the start of a level, before the end or a `/`, is read as one. -/
theorem tokensAfter_level_append {level : List Char} (h : IsFilterLevel level)
    (hstar : '*' ∉ level) (hhash : level ≠ ['#']) {before : Option Char}
    (hb : startsLevel before = true) (text : List Char) (htext : endsLevel text = true) :
    ∃ before', tokensAfter before (level ++ text) =
      levelTokens level ++ tokensAfter before' text := by
  unfold levelTokens
  by_cases hplus : level = ['+']
  · refine ⟨some '+', ?_⟩
    subst hplus
    simp [tokensAfter, hb, htext]
  · rw [if_neg hplus]
    exact ⟨_, tokensAfter_plain_append (isPlain_of_isFilterLevel h hstar hplus hhash) before text⟩

theorem tokensAfter_slash (before : Option Char) (text : List Char) :
    tokensAfter before ('/' :: text) = .char '/' :: tokensAfter (some '/') text := by
  simp [tokensAfter]

theorem head?_tokensAfter_eq_rest_iff {before : Option Char} (hb : startsLevel before = true)
    {text : List Char} (hstar : '*' ∉ text) :
    (tokensAfter before text).head? = some .rest ↔ text = ['#'] := by
  cases text with
  | nil => simp [tokensAfter]
  | cons c text =>
      have hc : c ≠ '*' := by
        rintro rfl
        exact hstar List.mem_cons_self
      unfold tokensAfter
      rw [if_neg hc, hb]
      split
      · next h =>
          obtain rfl : c = '+' := by simpa using (Bool.and_eq_true_iff.1 (Bool.and_eq_true_iff.1 h).1).1
          simp
      · split
        · next h => simpa using h
        · next h => simpa using h

/-! ### Texts that fit a filter -/

/-- Plain characters fit themselves, whatever the tokens after them. -/
theorem fits_map_char_append_self {plain : List Char} {ts : List Token} {text : List Char} :
    Fits (plain.map .char ++ ts) (plain ++ text) ↔ Fits ts text := by
  induction plain with
  | nil => rfl
  | cons c plain ih => simp [Fits, ih]

theorem fits_map_char_append_iff {level : List Char} (h : '/' ∉ level) {ts : List Token}
    {text : List Char} :
    Fits (level.map .char ++ ts) text ↔ ∃ rest, text = level ++ rest ∧ Fits ts rest := by
  induction level generalizing text with
  | nil => simp
  | cons c level ih =>
      rw [List.mem_cons, not_or] at h
      have hc : ¬c = '/' := fun e => h.1 e.symm
      rw [List.map_cons, List.cons_append, Fits]
      simp only [hc, false_and, false_or, ih h.2]
      constructor
      · rintro ⟨_, rfl, rest, rfl, hfits⟩
        exact ⟨rest, rfl, hfits⟩
      · rintro ⟨rest, rfl, hfits⟩
        exact ⟨level ++ rest, rfl, rest, rfl, hfits⟩

/-- Characters that are read as themselves fit themselves, unless a `#` follows them. -/
theorem fits_map_char_append_iff_of_head? {plain : List Char} {ts : List Token}
    (hts : ts.head? ≠ some .rest) {text : List Char} :
    Fits (plain.map .char ++ ts) text ↔ ∃ rest, text = plain ++ rest ∧ Fits ts rest := by
  induction plain generalizing text with
  | nil => simp
  | cons c plain ih =>
      have hhead : (plain.map Token.char ++ ts).head? ≠ some .rest := by
        cases plain with
        | nil => exact hts
        | cons d plain => exact nofun
      rw [List.map_cons, List.cons_append, Fits]
      simp only [hhead, false_and, and_false, false_or, ih]
      constructor
      · rintro ⟨_, rfl, rest, rfl, hfits⟩
        exact ⟨rest, rfl, hfits⟩
      · rintro ⟨rest, rfl, hfits⟩
        exact ⟨plain ++ rest, rfl, rest, rfl, hfits⟩

/-- The levels of a text are its first and those of what follows the `/` after it. -/
theorem levels_eq (text : List Char) : levels text = levelOf text ::
    match afterLevel text with
    | [] => []
    | _ :: rest => levels rest := by
  have htext := levelOf_append_afterLevel text
  have hnot := not_mem_levelOf text
  rcases afterLevel_eq text with h | ⟨rest, h⟩
  · rw [h, List.append_nil] at htext
    rw [h]
    rw [htext] at hnot ⊢
    exact levels_of_not_mem hnot
  · rw [h] at htext ⊢
    conv_lhs => rw [← htext]
    exact levels_append_cons hnot rest

/-- What is left after a level of the text fits the tokens after the level. -/
theorem fits_levelTokens_append_iff {level : List Char} (h : '/' ∉ level) {ts : List Token}
    (hts : ∀ text, Fits ts text → endsLevel text = true) {text : List Char} :
    Fits (levelTokens level ++ ts) text ↔
      ((level = ['+'] ∧ levelOf text ≠ ['#']) ∨ level = levelOf text) ∧
        Fits ts (afterLevel text) := by
  unfold levelTokens
  by_cases hplus : level = ['+']
  · rw [if_pos hplus]
    show levelOf text ≠ ['#'] ∧ Fits ts (afterLevel text) ↔ _
    refine and_congr_left fun _ => ?_
    constructor
    · intro hne
      exact .inl ⟨hplus, hne⟩
    · rintro (⟨_, hne⟩ | he)
      · exact hne
      · rw [← he, hplus]
        decide
  · rw [if_neg hplus, fits_map_char_append_iff h]
    constructor
    · rintro ⟨rest, rfl, hfits⟩
      obtain ⟨hlevel, hafter⟩ := levelOf_append h (hts rest hfits)
      rw [hlevel, hafter]
      exact ⟨.inr rfl, hfits⟩
    · rintro ⟨⟨he, _⟩ | rfl, hfits⟩
      · exact absurd he hplus
      · exact ⟨afterLevel text, (levelOf_append_afterLevel text).symm, hfits⟩

theorem endsLevel_of_fits_slash {ts : List Token} {text : List Char}
    (h : Fits (.char '/' :: ts) text) : endsLevel text = true := by
  rcases h with ⟨_, _, rfl⟩ | ⟨rest, rfl, _⟩
  · rfl
  · rfl

theorem levels_eq_rest_iff {text : List Char} : levels text = [['#']] ↔ text = ['#'] := by
  constructor
  · intro h
    rcases exists_level text with hno | ⟨level, rest, hlevel, rfl⟩
    · rw [levels_of_not_mem hno] at h
      exact List.singleton_inj.1 h
    · rw [levels_append_cons hlevel] at h
      exact absurd (List.cons.inj h).2 (levels_ne_nil rest)
  · rintro rfl
    exact levels_of_not_mem (by decide)

/-- **What a filter covers.**  At the start of a level, a text fits the tokens of a filter exactly
if its levels match those of the filter, where `+` does not stand for `#`. -/
theorem fits_tokensAfter_iff {filter : List Char} (h : IsFilter filter) (hstar : '*' ∉ filter)
    {before : Option Char} (hb : startsLevel before = true) {text : List Char} :
    Fits (tokensAfter before filter) text ↔
      LevelsMatch (· ≠ ['#']) (levels filter) (levels text) := by
  revert before text
  refine IsFilter.induction (motive := fun filter => '*' ∉ filter → ∀ {before : Option Char},
    startsLevel before = true → ∀ {text : List Char}, Fits (tokensAfter before filter) text ↔
      LevelsMatch (· ≠ ['#']) (levels filter) (levels text)) ?_ ?_ h hstar
  · intro level hno hlevel hstar before hb text
    rw [levels_of_not_mem hno]
    by_cases hhash : level = ['#']
    · subst hhash
      have htokens : tokensAfter before ['#'] = [.rest] := by simp [tokensAfter, hb]
      rw [htokens]
      exact iff_of_true trivial (.rest _)
    · obtain ⟨before', htokens⟩ := tokensAfter_level_append hlevel hstar hhash hb [] rfl
      rw [List.append_nil] at htokens
      rw [htokens, fits_levelTokens_append_iff hno (by rintro text rfl; rfl), levels_eq,
        levelsMatch_cons_iff hhash]
      refine and_congr_right fun _ => ?_
      rw [levelsMatch_nil_iff]
      rcases afterLevel_eq text with hafter | ⟨rest, hafter⟩
      · simp [hafter, tokensAfter, Fits]
      · simp [hafter, tokensAfter, Fits, levels_ne_nil]
  · intro level rest hno hlevel hhash ih hstar before hb text
    rw [List.mem_append, List.mem_cons, not_or, not_or] at hstar
    obtain ⟨before', htokens⟩ :=
      tokensAfter_level_append hlevel hstar.1 hhash hb ('/' :: rest) rfl
    rw [htokens, tokensAfter_slash, levels_append_cons hno, levels_eq text,
      levelsMatch_cons_iff hhash,
      fits_levelTokens_append_iff hno fun text hfits => endsLevel_of_fits_slash hfits]
    refine and_congr_right fun _ => ?_
    have hslash : startsLevel (some '/') = true := rfl
    -- a text that ends here fits only if all that follows is a `#`
    rcases afterLevel_eq text with hafter | ⟨text', hafter⟩
    · rw [hafter, levelsMatch_nil_right_iff, levels_eq_rest_iff]
      simp [Fits, head?_tokensAfter_eq_rest_iff hslash hstar.2.2, levels_ne_nil]
    · rw [hafter, ← ih hstar.2.2 hslash]
      simp [Fits]

/-! ### Resources that name a filter or a topic -/

/-- The resource of a service and a kind with a name. -/
def resourceOf (service kind name : String) : String := service ++ ":" ++ kind ++ ":" ++ name

/-- A service or kind without wildcards and without a `:`. -/
def IsPlainName (name : String) : Prop := IsPlain name.toList ∧ ':' ∉ name.toList

instance : DecidablePred IsPlain := fun text =>
  List.decidableBAll (fun c => c ≠ '*' ∧ c ≠ '+' ∧ c ≠ '#') text
instance : DecidablePred IsPlainName := fun _ => inferInstanceAs (Decidable (_ ∧ _))

/-- What stands before the name in a resource. -/
def resourceHead (service kind : String) : List Char :=
  service.toList ++ ':' :: (kind.toList ++ [':'])

theorem toList_resourceOf (service kind name : String) :
    (resourceOf service kind name).toList = resourceHead service kind ++ name.toList := by
  simp [resourceOf, resourceHead]

theorem isPlain_resourceHead {service kind : String} (hs : IsPlainName service)
    (hk : IsPlainName kind) : IsPlain (resourceHead service kind) := by
  intro c hc
  rw [resourceHead, List.mem_append, List.mem_cons, List.mem_append, List.mem_singleton] at hc
  rcases hc with hc | rfl | hc | rfl
  · exact hs.1 c hc
  · decide
  · exact hk.1 c hc
  · decide

/-- A name follows a `:`. -/
theorem getLast?_resourceHead (service kind : String) :
    (resourceHead service kind).getLast? = some ':' := by
  rw [resourceHead, ← List.cons_append, ← List.append_assoc, List.getLast?_concat]

theorem tokens_resourceOf {service kind : String} (hs : IsPlainName service)
    (hk : IsPlainName kind) (name : String) : tokens (resourceOf service kind name).toList =
      (resourceHead service kind).map .char ++ tokensAfter (some ':') name.toList := by
  rw [toList_resourceOf, tokens, tokensAfter_plain_append (isPlain_resourceHead hs hk),
    getLast?_resourceHead]
  rfl

/-- A granted filter covers a name exactly if the levels of the name match it. -/
theorem covers_iff_levelsMatch {service kind filter : String} (hs : IsPlainName service)
    (hk : IsPlainName kind) (hf : IsFilter filter.toList) (hstar : '*' ∉ filter.toList)
    (name : String) :
    covers (resourceOf service kind filter) (resourceOf service kind name) = true ↔
      LevelsMatch (· ≠ ['#']) (levels filter.toList) (levels name.toList) := by
  have hcolon : startsLevel (some ':') = true := rfl
  rw [covers_iff, tokens_resourceOf hs hk, toList_resourceOf, fits_map_char_append_self,
    fits_tokensAfter_iff hf hstar hcolon]
  -- the grant of its own text adds nothing: a filter matches itself
  constructor
  · rintro (he | hm)
    · have hname := congrArg String.toList he
      rw [toList_resourceOf, toList_resourceOf] at hname
      rw [← List.append_cancel_left hname]
      exact hf.levelsMatch_self _
    · exact hm
  · exact .inr

/-- A granted filter covers the topics that it stands for. -/
theorem covers_iff_matches {service kind filter topic : String} (hs : IsPlainName service)
    (hk : IsPlainName kind) (hf : IsFilter filter.toList) (hstar : '*' ∉ filter.toList)
    (ht : IsTopic topic.toList) :
    covers (resourceOf service kind filter) (resourceOf service kind topic) = true ↔
      Matches filter.toList topic.toList := by
  rw [covers_iff_levelsMatch hs hk hf hstar]
  constructor
  · intro hm
    exact hm.mono fun _ _ _ => trivial
  · intro hm
    refine hm.mono ?_
    rintro level hlevel - rfl
    exact ht.2.2 (mem_of_mem_levels hlevel List.mem_cons_self)

/-- **A granted filter admits no request beyond itself.**  A granted filter covers exactly the topics
it stands for.  If it covers a requested filter, well formed or not, then it covers every topic that
the requested filter stands for. -/
theorem covers_topic_of_covers_filter {service kind filter requested topic : String}
    (hs : IsPlainName service) (hk : IsPlainName kind) (hf : IsFilter filter.toList)
    (hstar : '*' ∉ filter.toList) (ht : IsTopic topic.toList) :
    (covers (resourceOf service kind filter) (resourceOf service kind topic) = true ↔
      Matches filter.toList topic.toList) ∧
    (covers (resourceOf service kind filter) (resourceOf service kind requested) = true →
      Matches requested.toList topic.toList →
      covers (resourceOf service kind filter) (resourceOf service kind topic) = true) := by
  refine ⟨covers_iff_matches hs hk hf hstar ht, ?_⟩
  intro hcovers hm
  rw [covers_iff_levelsMatch hs hk hf hstar] at hcovers ⊢
  refine hcovers.trans hm ?_
  intro hlevel
  exact ht.2.2 (mem_of_mem_levels hlevel List.mem_cons_self)

/-- A request for all that is below one sensor also delivers what the sensor itself sends. -/
theorem covers_parent_topic :
    covers (resourceOf "mqtt" "topicfilter" "telemetry/+/#")
        (resourceOf "mqtt" "topicfilter" "telemetry/sensor-7/#") = true ∧
      Matches "telemetry/sensor-7/#".toList "telemetry/sensor-7".toList ∧
      covers (resourceOf "mqtt" "topicfilter" "telemetry/+/#")
        (resourceOf "mqtt" "topicfilter" "telemetry/sensor-7") = true := by
  have hcovers : covers (resourceOf "mqtt" "topicfilter" "telemetry/+/#")
      (resourceOf "mqtt" "topicfilter" "telemetry/sensor-7/#") = true := by decide +kernel
  have hm : Matches "telemetry/sensor-7/#".toList "telemetry/sensor-7".toList :=
    .same (by decide) (.same (by decide) (.rest []))
  exact ⟨hcovers, hm, (covers_topic_of_covers_filter (by decide) (by decide) (by decide)
    (by decide) (by decide)).2 hcovers hm⟩

/-! ### Requests of any service and kind -/

/-- Texts with the same separator behind texts without it are the same part by part. -/
theorem append_separator_inj {separator : Char} {first first' rest rest' : List Char}
    (h : separator ∉ first) (h' : separator ∉ first')
    (heq : first ++ separator :: rest = first' ++ separator :: rest') :
    first = first' ∧ rest = rest' := by
  induction first generalizing first' with
  | nil =>
      cases first' with
      | nil => exact ⟨rfl, (List.cons.inj heq).2⟩
      | cons c first' => exact absurd (List.cons.inj heq).1 (List.ne_of_not_mem_cons h')
  | cons c first ih =>
      cases first' with
      | nil => exact absurd (List.cons.inj heq).1.symm (List.ne_of_not_mem_cons h)
      | cons d first' =>
          obtain ⟨rfl, htail⟩ := List.cons.inj heq
          rw [List.mem_cons, not_or] at h h'
          obtain ⟨rfl, hrest⟩ := ih h.2 h'.2 htail
          exact ⟨rfl, hrest⟩

theorem resourceHead_append_inj {service kind service' kind' : String} {rest rest' : List Char}
    (hs : ':' ∉ service.toList) (hk : ':' ∉ kind.toList) (hs' : ':' ∉ service'.toList)
    (hk' : ':' ∉ kind'.toList)
    (h : resourceHead service kind ++ rest = resourceHead service' kind' ++ rest') :
    service = service' ∧ kind = kind' ∧ rest = rest' := by
  simp only [resourceHead, List.append_assoc, List.cons_append, List.nil_append] at h
  obtain ⟨hservice, htail⟩ := append_separator_inj hs hs' h
  obtain ⟨hkind, hrest⟩ := append_separator_inj hk hk' htail
  exact ⟨String.toList_injective hservice, String.toList_injective hkind, hrest⟩

/-- The service and the kind of a pattern fit themselves only. -/
theorem fits_resourceHead_append_iff {service kind : String} {ts : List Token} {text : List Char} :
    Fits ((resourceHead service kind).map .char ++ ts) text ↔
      ∃ rest, text = resourceHead service kind ++ rest ∧ Fits ts rest := by
  -- the head ends with a `:`, so no `/` of it stands before a `#`
  have hlast : (resourceHead service kind).map Token.char ++ ts =
      (service.toList ++ ':' :: kind.toList).map .char ++ .char ':' :: ts := by
    simp [resourceHead]
  have hhead (rest : List Char) : resourceHead service kind ++ rest =
      (service.toList ++ ':' :: kind.toList) ++ ':' :: rest := by
    simp [resourceHead]
  have hcolon : (Token.char ':' :: ts).head? ≠ some .rest := nofun
  rw [hlast, fits_map_char_append_iff_of_head? hcolon]
  simp only [hhead]
  constructor
  · rintro ⟨_, rfl, ⟨h, _⟩ | ⟨rest, rfl, h⟩⟩
    · exact absurd h (by decide)
    · exact ⟨rest, rfl, h⟩
  · rintro ⟨rest, rfl, h⟩
    exact ⟨':' :: rest, rfl, .inr ⟨rest, rfl, h⟩⟩

/-- A pattern with a plain service and kind covers only requests of this service and kind. -/
theorem covers_resourceOf_iff {service kind service' kind' : String} (hs : IsPlainName service)
    (hk : IsPlainName kind) (hs' : ':' ∉ service'.toList) (hk' : ':' ∉ kind'.toList)
    (pattern name : String) :
    covers (resourceOf service kind pattern) (resourceOf service' kind' name) = true ↔
      service = service' ∧ kind = kind' ∧
        covers (resourceOf service kind pattern) (resourceOf service kind name) = true := by
  have hcovers (request : String) :
      covers (resourceOf service kind pattern) request = true ↔
        ∃ rest, request.toList = resourceHead service kind ++ rest ∧
          Fits (tokensAfter (some ':') pattern.toList) rest := by
    rw [covers_iff_fits, tokens_resourceOf hs hk, fits_resourceHead_append_iff]
  rw [hcovers, hcovers, toList_resourceOf, toList_resourceOf]
  constructor
  · rintro ⟨rest, heq, h⟩
    obtain ⟨rfl, rfl, hrest⟩ := resourceHead_append_inj hs' hk' hs.2 hk.2 heq
    exact ⟨rfl, rfl, rest, heq, h⟩
  · rintro ⟨rfl, rfl, h⟩
    exact h

/-- **A granted filter covers the topics it stands for, and no others.**  Among the requests for topics,
of whatever service and kind, a granted filter covers those of its own service and kind whose levels
match the levels of the filter. -/
theorem covers_iff_same_and_matches {service kind filter service' kind' topic : String}
    (hs : IsPlainName service) (hk : IsPlainName kind) (hs' : ':' ∉ service'.toList)
    (hk' : ':' ∉ kind'.toList) (hf : IsFilter filter.toList) (hstar : '*' ∉ filter.toList)
    (hhash : '#' ∉ topic.toList) :
    covers (resourceOf service kind filter) (resourceOf service' kind' topic) = true ↔
      service = service' ∧ kind = kind' ∧ Matches filter.toList topic.toList := by
  rw [covers_resourceOf_iff hs hk hs' hk', covers_iff_levelsMatch hs hk hf hstar]
  refine and_congr_right fun _ => and_congr_right fun _ => ?_
  constructor
  · intro hm
    exact hm.mono fun _ _ _ => trivial
  · intro hm
    refine hm.mono ?_
    rintro level hlevel - rfl
    exact hhash (mem_of_mem_levels hlevel List.mem_cons_self)

/-- `+` stands for an empty level too, and the `#` behind it for none; the `:` in the topic divides no
levels. -/
theorem covers_empty_level :
    Matches "plant:7/+/#".toList "plant:7/".toList ∧
      covers (resourceOf "mqtt" "topic" "plant:7/+/#") (resourceOf "mqtt" "topic" "plant:7/") =
        true := by
  have hm : Matches "plant:7/+/#".toList "plant:7/".toList :=
    .same (by decide) (.any trivial (.rest []))
  exact ⟨hm, (covers_iff_same_and_matches (by decide) (by decide) (by decide) (by decide)
    (by decide) (by decide) (by decide)).2 ⟨rfl, rfl, hm⟩⟩

end ResourcePattern

end DeviceAccess
