import DeviceAccess.Proofs.Policy.Grammar
import DeviceAccess.Proofs.Policy.Matchers

/-!
# Writing rules

A rule is written from what it is to mean: alternatives, each with the values that a thing's name has to
fit (`Rule.write`).  Whatever the alternatives and the values, what is written is read as a rule, and
the rule means these alternatives (`Rule.exists_ofText_write`).

The reader works in two steps, and so does the argument.  What is written spells the tokens of the
alternatives (`Rule.Writes`), with a colon as its escape inside of a word; and from these tokens the
reader gets one pattern for each value (`Rule.alternativesAfter_alternatives`).  Values may look like
keywords, since a word behind a colon is always a value.
-/

namespace DeviceAccess.Rule

/-- What a term asks of a thing's name: to be `name` or, if the value goes on, to start with it. -/
structure Value where
  name : List Char
  goesOn : Bool
  isNameChar_of_mem : ∀ c ∈ name, Thing.isNameChar c = true
  ne_nil_or_goesOn : name ≠ [] ∨ goesOn = true

namespace Value

/-- The value with the `*` that it ends in if it goes on. -/
def text (v : Value) : List Char := v.name ++ starIf v.goesOn

/-- The thing's name is the one that the value asks for. -/
def Fits (v : Value) (thing : String) : Prop :=
  if v.goesOn then v.name <+: thing.toList else thing.toList = v.name

/-- The value as a term, with its colons escaped. -/
def term (v : Value) : String := "thingName: " ++ String.ofList (spelling v.text)

/-- The tokens of the term. -/
def tokens (v : Value) : List Token := [.word "thingName".toList, .colon, .word v.text]

/-- The pattern that the value is read as. -/
def glob (v : Value) : Glob := Glob.ofPattern (String.ofList v.text)

end Value

/-- Values that all have to fit, in one alternative. -/
def writeValues (values : List Value) : String := " AND ".intercalate (values.map (·.term))

/-- The text of a rule with these alternatives. -/
def write (alternatives : List (List Value)) : String := " OR ".intercalate (alternatives.map writeValues)

/-- The tokens of an alternative. -/
def valueTokens (values : List Value) : List Token :=
  [Token.word "AND".toList].intercalate (values.map (·.tokens))

variable {source : String} {connective : List Char} {ts ts' after : List Token} {values : List Value}
  {alternatives : List (List Value)} {pending : List Glob}

/-! ### Values -/

namespace Value

theorem star_not_mem_name (v : Value) : '*' ∉ v.name := fun h =>
  absurd (v.isNameChar_of_mem _ h) (by decide)

theorem isLetter_of_isNameChar {c : Char} (h : Thing.isNameChar c = true) : IsLetter c := by
  simp only [Thing.isNameChar, Bool.or_eq_true, beq_iff_eq] at h
  simp only [IsLetter, isWordChar, Bool.or_eq_true, beq_iff_eq]
  tauto

theorem isWord_text (v : Value) : IsWord v.text := by
  obtain ⟨name, goesOn, hname, hne⟩ := v
  refine ⟨?_, fun c hc => ?_⟩
  · rcases hne with hne | rfl
    · exact List.append_ne_nil_of_left_ne_nil hne _
    · exact List.append_ne_nil_of_right_ne_nil _ (List.cons_ne_nil _ _)
  · rcases List.mem_append.1 hc with hc | hc
    · exact isLetter_of_isNameChar (hname c hc)
    · cases goesOn with
      | false => cases hc
      | true =>
          obtain rfl := List.mem_singleton.1 hc
          exact .inl (by decide)

theorem eq_ofPattern_of_valuePattern {value : List Char} {glob : Glob}
    (h : valuePattern value = .ok glob) : glob = Glob.ofPattern (String.ofList value) := by
  unfold valuePattern at h
  by_cases hbody : (if value.getLast? = some '*' then value.dropLast else value).contains '*' = true
  · simp only [if_pos hbody] at h
    cases h
  · simp only [if_neg hbody] at h
    exact (Except.ok.inj h).symm

theorem valuePattern_text (v : Value) : valuePattern v.text = .ok v.glob := by
  have hpattern : IsPattern v.text := by
    refine ⟨v.name, v.star_not_mem_name, ?_⟩
    unfold text
    cases v.goesOn with
    | false => exact .inl (List.append_nil _)
    | true => exact .inr rfl
  obtain ⟨glob, hglob⟩ := exists_valuePattern_iff.2 hpattern
  rw [hglob, eq_ofPattern_of_valuePattern hglob]
  rfl

/-- The pattern of a value accepts the names that fit the value. -/
theorem accepts_glob_iff (v : Value) (thing : String) : v.glob.accepts thing = true ↔ v.Fits thing := by
  have htext : (String.ofList v.text).toList = starIf false ++ (v.name ++ starIf v.goesOn) :=
    String.toList_ofList
  unfold glob Fits
  rw [Glob.accepts_iff v.star_not_mem_name htext]
  cases v.goesOn with
  | false => exact isAround_false_false_iff
  | true => exact isAround_false_true_iff

end Value

/-! ### What is written -/

/-- In front of anything at which a word ends, the text is read as these tokens. -/
def Writes (text : String) (ts : List Token) : Prop :=
  ∀ rest after, EndsWord rest → Spells rest after → Spells (text.toList ++ rest) (ts ++ after)

theorem isBlankText_space : IsBlankText [' '] := List.forall_mem_singleton.2 (by decide)

theorem writes_term (v : Value) : Writes v.term v.tokens := by
  intro rest after hends hrest
  have hnone : IsBlankText [] := nofun
  have hterm := spells_term hnone isBlankText_space v.isWord_text hends hrest
  simpa [Value.term, Value.tokens] using hterm

/-- Two texts with a connective between them. -/
theorem Writes.join {text text' joint : String} (hconnective : IsConnective connective)
    (hjoint : joint.toList = ' ' :: (connective ++ [' '])) (h : Writes text ts)
    (h' : Writes text' ts') : Writes (text ++ joint ++ text') (ts ++ [.word connective] ++ ts') := by
  intro rest after hends hrest
  have hends' : ∀ text, EndsWord ([' '] ++ text) := fun _ =>
    endsWord_of_isBlankText (List.cons_ne_nil _ _) isBlankText_space
  have hjoined := Spells.word isBlankText_space hconnective.isWord.1 (hends' _)
    ((h' rest after hends hrest).blanks_append isBlankText_space)
  rw [hconnective.isWord.2] at hjoined
  have hall := h _ _ (hends' _) hjoined
  rw [String.toList_append, String.toList_append, hjoint]
  simpa using hall

/-- Any number of texts, one at least, with a connective between each two. -/
theorem writes_intercalate {α : Type} {text : α → String} {tokens : α → List Token} {joint : String}
    (hconnective : IsConnective connective) (hjoint : joint.toList = ' ' :: (connective ++ [' ']))
    {xs : List α} (hne : xs ≠ []) (h : ∀ x ∈ xs, Writes (text x) (tokens x)) :
    Writes (joint.intercalate (xs.map text)) ([.word connective].intercalate (xs.map tokens)) := by
  induction xs with
  | nil => exact absurd rfl hne
  | cons x xs ih =>
      obtain ⟨hx, hxs⟩ := List.forall_mem_cons.1 h
      cases xs with
      | nil => simpa using hx
      | cons y xs =>
          have hjoined := hx.join hconnective hjoint (ih (List.cons_ne_nil y xs) hxs)
          simpa only [List.map_cons, List.intercalate_cons_cons, String.intercalate_cons_cons] using hjoined

theorem writes_values (hne : values ≠ []) : Writes (writeValues values) (valueTokens values) :=
  writes_intercalate (.inl rfl) rfl hne fun v _ => writes_term v

/-- What is written spells the tokens of the alternatives. -/
theorem spells_write (hne : alternatives ≠ []) (hall : ∀ values ∈ alternatives, values ≠ []) :
    Spells (write alternatives).toList
      ([.word "OR".toList].intercalate (alternatives.map valueTokens)) := by
  have hwrites : Writes (write alternatives) _ :=
    writes_intercalate (.inr rfl) rfl hne fun values hvalues => writes_values (hall values hvalues)
  have hnone : IsBlankText [] := nofun
  simpa using hwrites [] [] nofun (.done hnone)

/-! ### What is read -/

theorem term_tokens_append (v : Value) (after : List Token) :
    Rule.term (v.tokens ++ after) = .ok (v.glob, after) :=
  term_eq_ok_iff.2 ⟨v.text, rfl, v.valuePattern_text⟩

/-- The reader behind a term. -/
theorem alternativesAfter_of_term {glob : Glob} (h : Rule.term ts = .ok (glob, after)) :
    alternativesAfter source pending ts =
      match after with
      | [] => .ok [pending ++ [glob]]
      | t :: rest =>
        if t = .word "AND".toList then alternativesAfter source (pending ++ [glob]) rest
        else if t = .word "OR".toList then
          (alternativesAfter source [] rest).map fun others => (pending ++ [glob]) :: others
        else .error (.unexpectedToken t source) := by
  rw [alternativesAfter]
  split
  · next e herror =>
      rw [h] at herror
      cases herror
  · next glob' after' hok =>
      rw [h] at hok
      obtain ⟨rfl, rfl⟩ := Prod.mk.inj (Except.ok.inj hok)
      rfl

/-- The reader behind the values of an alternative, which end the rule or are followed by others. -/
theorem alternativesAfter_values (source : String) (hne : values ≠ []) (pending : List Glob) :
    alternativesAfter source pending (valueTokens values) = .ok [pending ++ values.map (·.glob)] ∧
      ∀ rest, alternativesAfter source pending (valueTokens values ++ .word "OR".toList :: rest) =
        (alternativesAfter source [] rest).map ((pending ++ values.map (·.glob)) :: ·) := by
  have hor : Token.word "OR".toList ≠ .word "AND".toList := by decide
  unfold valueTokens
  induction values generalizing pending with
  | nil => exact absurd rfl hne
  | cons v values ih =>
      cases values with
      | nil =>
          refine ⟨?_, fun rest => ?_⟩
          · have hterm := term_tokens_append v []
            rw [List.append_nil] at hterm
            simp [alternativesAfter_of_term hterm]
          · simp only [List.map_cons, List.map_nil, List.intercalate_singleton]
            rw [alternativesAfter_of_term (term_tokens_append v _)]
            simp only [if_neg hor, if_true]
      | cons w values =>
          obtain ⟨hlast, hmore⟩ := ih (List.cons_ne_nil w values) (pending ++ [v.glob])
          simp only [List.map_cons, List.intercalate_cons_cons, List.append_assoc,
            List.singleton_append] at hlast hmore ⊢
          refine ⟨?_, fun rest => ?_⟩
          · rw [alternativesAfter_of_term (term_tokens_append v _)]
            simp only [if_true]
            exact hlast
          · rw [List.cons_append, alternativesAfter_of_term (term_tokens_append v _)]
            simp only [if_true]
            exact hmore rest

/-- **What the reader makes of the tokens of alternatives.** -/
theorem alternativesAfter_alternatives (source : String) (hne : alternatives ≠ [])
    (hall : ∀ values ∈ alternatives, values ≠ []) :
    alternativesAfter source [] ([Token.word "OR".toList].intercalate (alternatives.map valueTokens)) =
      .ok (alternatives.map fun values => values.map (·.glob)) := by
  induction alternatives with
  | nil => exact absurd rfl hne
  | cons values alternatives ih =>
      obtain ⟨hvalues, hrest⟩ := List.forall_mem_cons.1 hall
      obtain ⟨hlast, hmore⟩ := alternativesAfter_values source hvalues []
      cases alternatives with
      | nil => simpa using hlast
      | cons others alternatives =>
          rw [List.map_cons, List.map_cons, List.intercalate_cons_cons, List.append_assoc,
            List.singleton_append, hmore, ← List.map_cons, ih (List.cons_ne_nil _ _) hrest]
          rfl

/-- **Written rules mean what they were written from.**  Let there be one alternative or more, each with
one value or more.  The text that they are written as is read as a rule, and the rule selects exactly the
sessions that have a thing whose name fits all values of one of the alternatives. -/
theorem exists_ofText_write (alternatives : List (List Value)) (hne : alternatives ≠ [])
    (hall : ∀ values ∈ alternatives, values ≠ []) :
    ∃ r, ofText (write alternatives) = .ok r ∧ ∀ session : Session, r.selects session = true ↔
      ∃ thing, session.thing? = some thing ∧
        ∃ values ∈ alternatives, ∀ v ∈ values, v.Fits thing.name := by
  have htokens : Rule.tokens (write alternatives) = .ok _ :=
    tokensWithin_eq_ok_iff.2 (spells_write hne hall)
  have hread := alternativesAfter_alternatives (write alternatives) hne hall
  refine ⟨⟨write alternatives, alternatives.map fun values => values.map (·.glob)⟩, ?_, ?_⟩
  · refine mapError_eq_ok_iff.2 (bind_eq_ok_iff.2 ⟨_, htokens, bind_eq_ok_iff.2 ⟨_, hread, rfl⟩⟩)
  · intro session
    unfold selects Session.thingName?
    cases session.thing? with
    | none => exact iff_of_false Bool.false_ne_true nofun
    | some thing => simp [accepts, Value.accepts_glob_iff]

/-- Two alternatives: a name that looks like a keyword with one that has a colon and goes on, and any
name. -/
def twoAlternatives : List (List Value) :=
  [[⟨"AND".toList, false, List.all_eq_true.1 (by decide), .inl (by decide)⟩,
      ⟨"a:".toList, true, List.all_eq_true.1 (by decide), .inr rfl⟩],
    [⟨[], true, nofun, .inr rfl⟩]]

theorem exists_ofText_write_twoAlternatives :
    write twoAlternatives = "thingName: AND AND thingName: a\\:* OR thingName: *" ∧
      ∃ r, ofText (write twoAlternatives) = .ok r ∧ ∀ session : Session, r.selects session = true ↔
        ∃ thing, session.thing? = some thing ∧
          ∃ values ∈ twoAlternatives, ∀ v ∈ values, v.Fits thing.name :=
  ⟨by decide +kernel, exists_ofText_write twoAlternatives (by decide) (by decide)⟩

end DeviceAccess.Rule
