import DeviceAccess.Proofs.Policy.Isolation

/-!
# Names in the place of variables, and the wildcards around them

A thing's name has no wildcard, so what is filled in brings none.  But whether a `+` or a `#` is a
wildcard depends on the characters beside it, and these may change when a name takes the place of a
variable.  Nothing becomes the end of a level that was not, since a name does not start with a `/`.  A
level starts behind a `:`, though, which may be the last character of a name.

So no wildcard of a checked resource is lost, and none is added unless the name ends with a `:` and a
variable is followed by a `+` or `#` that the start of a level makes a wildcard of
(`PolicyVariable.wildcards_substitute`).
-/

namespace DeviceAccess

namespace ResourcePattern

/-- Whether a token stands for other text than a character. -/
def Token.isWildcard : Token → Bool
  | .char _ => false
  | .anyText | .level | .rest => true

/-- The wildcards among tokens. -/
def wildcards (ts : List Token) : List Token := ts.filter Token.isWildcard

/-- The wildcard that a text starts with where a level starts. -/
def opening : List Char → Option Token
  | [] => none
  | c :: after =>
    if c = '+' && endsLevel after then some .level
    else if c = '#' && after.isEmpty then some .rest
    else none

variable {before before' : Option Char} {c : Char} {text text' : List Char}

theorem wildcards_append (ts ts' : List Token) :
    wildcards (ts ++ ts') = wildcards ts ++ wildcards ts' :=
  List.filter_append ..

theorem wildcards_cons (t : Token) (ts : List Token) :
    wildcards (t :: ts) = wildcards [t] ++ wildcards ts :=
  wildcards_append [t] ts

theorem wildcards_map_char (text : List Char) : wildcards (text.map .char) = [] := by
  unfold wildcards
  rw [List.filter_eq_nil_iff]
  intro t ht
  obtain ⟨c, -, rfl⟩ := List.mem_map.1 ht
  exact Bool.false_ne_true

/-! ### What tokens depend on -/

/-- What follows a character matters only in where it ends a level and where it ends. -/
theorem tokenAt_congr (hends : endsLevel text = endsLevel text')
    (hempty : text.isEmpty = text'.isEmpty) : tokenAt before c text = tokenAt before c text' := by
  unfold tokenAt
  rw [hends, hempty]

theorem opening_cons_congr (hends : endsLevel text = endsLevel text')
    (hempty : text.isEmpty = text'.isEmpty) : opening (c :: text) = opening (c :: text') := by
  rw [opening, opening, hends, hempty]

/-- Of what stands before it matters only whether a level or a run of `*` goes on. -/
theorem tokensAfter_congr (hstart : startsLevel before = startsLevel before')
    (hstar : before ≠ some '*') (hstar' : before' ≠ some '*') (text : List Char) :
    tokensAfter before text = tokensAfter before' text := by
  cases text with
  | nil => rfl
  | cons c text =>
      rw [tokensAfter_cons, tokensAfter_cons, if_neg fun h => hstar h.2, if_neg fun h => hstar' h.2]
      unfold tokenAt
      rw [hstart]

/-- Where a level starts, a character is read as the wildcard it opens the text with, if any. -/
theorem wildcards_tokenAt (hstart : startsLevel before = true) (hc : c ≠ '*') (text : List Char) :
    wildcards [tokenAt before c text] = (opening (c :: text)).toList := by
  rw [tokenAt, opening, if_neg hc, hstart]
  simp only [Bool.and_true]
  split
  · rfl
  · split
    · rfl
    · rfl

/-- Where no level starts, a character other than `*` is read as itself. -/
theorem tokenAt_of_not_startsLevel (hstart : startsLevel before = false) (hc : c ≠ '*')
    (text : List Char) : tokenAt before c text = .char c := by
  simp [tokenAt, hstart, hc]

/-- At the start of a level there may be one wildcard more than elsewhere. -/
theorem wildcards_tokensAfter (hstart : startsLevel before = true)
    (hstart' : startsLevel before' = false) (hstar' : before' ≠ some '*') (text : List Char) :
    wildcards (tokensAfter before text) =
      (opening text).toList ++ wildcards (tokensAfter before' text) := by
  have hstar : before ≠ some '*' := by
    rintro rfl
    cases hstart
  cases text with
  | nil => rfl
  | cons c text =>
      rw [tokensAfter_cons, tokensAfter_cons, if_neg fun h => hstar h.2, if_neg fun h => hstar' h.2]
      by_cases hc : c = '*'
      · subst hc
        rfl
      · rw [wildcards_cons, wildcards_tokenAt hstart hc, tokenAt_of_not_startsLevel hstart' hc]
        rfl

/-- A plain text before the start of a pattern has no part in its wildcards but for its end. -/
theorem wildcards_plain_append {plain : List Char} (h : IsPlain plain) (hne : plain ≠ [])
    (before : Option Char) (text : List Char) : wildcards (tokensAfter before (plain ++ text)) =
      wildcards (tokensAfter plain.getLast? text) := by
  have hlast : plain.getLast?.or before = plain.getLast? := by
    rw [List.getLast?_eq_some_getLast hne]
    rfl
  rw [tokensAfter_plain_append h, wildcards_append, wildcards_map_char, List.nil_append, hlast]

end ResourcePattern

namespace PolicyVariable

open ResourcePattern

variable {session : Session} {thing : Thing} {c : Char} {text after : List Char}

/-! ### Spellings of the variable -/

/-- A spelling has a `$` at its front only, is plain, and ends with a brace. -/
theorem spelling_eq {spelling : List Char}
    (h : sameLetters thingName.token.toList spelling = true) :
    (∃ tail, spelling = '$' :: '{' :: tail ∧ '$' ∉ tail) ∧ IsPlain spelling ∧
      spelling.getLast? = some '}' := by
  have hmap : spelling.map Char.toLower = thingName.token.toList.map Char.toLower :=
    (of_decide_eq_true h).symm
  have hplain : IsPlain spelling := by
    intro c hc
    have hall : (thingName.token.toList.map Char.toLower).all
        (fun c => c ≠ '*' ∧ c ≠ '+' ∧ c ≠ '#') = true := by decide
    have hlower := of_decide_eq_true (List.all_eq_true.1 hall _ (hmap ▸ List.mem_map_of_mem hc))
    refine ⟨?_, ?_, ?_⟩ <;> rintro rfl
    · exact hlower.1 rfl
    · exact hlower.2.1 rfl
    · exact hlower.2.2 rfl
  refine ⟨?_, hplain, ?_⟩
  · rw [map_toLower_token] at hmap
    obtain ⟨dollar, _, rfl, hdollar, hbraced⟩ := List.map_eq_cons_iff.1 hmap
    obtain ⟨brace, tail, rfl, hbrace, htail⟩ := List.map_eq_cons_iff.1 hbraced
    obtain rfl := eq_of_toLower_eq hdollar (by decide)
    obtain rfl := eq_of_toLower_eq hbrace (by decide)
    refine ⟨tail, rfl, fun hmem => ?_⟩
    have hlower : '$'.toLower ∈ tail.map Char.toLower := List.mem_map_of_mem hmem
    rw [htail] at hlower
    exact absurd hlower (by decide)
  · have hlast := congrArg List.getLast? hmap
    rw [List.getLast?_map] at hlast
    obtain ⟨c, hc, hlower⟩ := Option.map_eq_some_iff.1 (hlast.trans (by decide : _ = some '}'))
    rw [hc, eq_of_toLower_eq hlower (by decide)]

/-- A known variable is a spelling and what follows it. -/
theorem exists_spelling_of_afterKnown? (h : afterKnown? text = some after) :
    ∃ spelling, text = spelling ++ after ∧ sameLetters thingName.token.toList spelling = true := by
  obtain ⟨spelling, hcandidate, hlookup⟩ := candidate?_of_afterKnown? h
  have hspelling : sameLetters thingName.token.toList spelling = true := by
    unfold lookup at hlookup
    have hfound := List.find?_some hlookup
    exact hfound
  exact ⟨spelling, append_of_candidate? hcandidate, hspelling⟩

/-! ### Where a name would open a level -/

/-- Behind a variable stands a `+` or `#` that is a wildcard where a level starts. -/
def OpensBehindVariable (text : List Char) : Prop :=
  ∃ head spelling after, text = head ++ (spelling ++ after) ∧
    sameLetters thingName.token.toList spelling = true ∧ (opening after).isSome = true

theorem opensBehindVariable_of_afterKnown? (h : afterKnown? text = some after) :
    OpensBehindVariable text ↔ (opening after).isSome = true ∨ OpensBehindVariable after := by
  obtain ⟨spelling, rfl, hspelling⟩ := exists_spelling_of_afterKnown? h
  obtain ⟨⟨tail, rfl, htail⟩, -⟩ := spelling_eq hspelling
  constructor
  · rintro ⟨head, spelling', after', heq, hspelling', hopening⟩
    cases head with
    | nil =>
        rw [List.nil_append] at heq
        rw [heq, afterKnown?_append hspelling'] at h
        exact .inl (Option.some.inj h ▸ hopening)
    | cons c head =>
        obtain ⟨⟨tail', rfl, -⟩, -⟩ := spelling_eq hspelling'
        rcases List.append_eq_append_iff.1 heq with ⟨rest, hhead, hafter⟩ | ⟨rest, hhead, hafter⟩
        · exact .inr ⟨rest, _, after', hafter, hspelling', hopening⟩
        · cases rest with
          | nil =>
              rw [List.nil_append] at hafter
              exact .inr ⟨[], _, after', hafter.symm, hspelling', hopening⟩
          | cons d rest =>
              -- the other variable would start inside of this one
              obtain rfl : '$' = d := (List.cons.inj hafter).1
              have hinside : '$' ∈ '{' :: tail := by
                rw [(List.cons.inj hhead).2]
                exact List.mem_append_right head List.mem_cons_self
              exact absurd hinside (by simpa using htail)
  · rintro (hopening | ⟨head, spelling', after', rfl, hspelling', hopening⟩)
    · exact ⟨[], _, after, rfl, hspelling, hopening⟩
    · refine ⟨'$' :: '{' :: tail ++ head, spelling', after', ?_, hspelling', hopening⟩
      rw [List.append_assoc]

theorem opensBehindVariable_cons (h : ['$', '{'].isPrefixOf (c :: text) = false) :
    OpensBehindVariable (c :: text) ↔ OpensBehindVariable text := by
  constructor
  · rintro ⟨head, spelling, after, heq, hspelling, hopening⟩
    cases head with
    | nil =>
        obtain ⟨⟨tail, rfl, -⟩, -⟩ := spelling_eq hspelling
        rw [heq] at h
        simp at h
    | cons d head => exact ⟨head, spelling, after, (List.cons.inj heq).2, hspelling, hopening⟩
  · rintro ⟨head, spelling, after, rfl, hspelling, hopening⟩
    exact ⟨c :: head, spelling, after, rfl, hspelling, hopening⟩

theorem not_opensBehindVariable_nil : ¬OpensBehindVariable [] := by
  rintro ⟨head, spelling, after, heq, hspelling, -⟩
  obtain ⟨⟨tail, rfl, -⟩, -⟩ := spelling_eq hspelling
  cases head <;> cases heq

/-! ### What is filled in, seen from before it -/

/-- A name is a character that no wildcard is, and what follows. -/
theorem thingName_eq_cons (thing : Thing) : ∃ d tail, thing.name.toList = d :: tail ∧ d ≠ '/' ∧
    d ≠ '+' ∧ d ≠ '#' := by
  obtain ⟨hplain, hslash⟩ := isPlain_thingName thing
  obtain ⟨d, tail, heq⟩ := List.exists_cons_of_ne_nil (thingName_ne_nil thing)
  rw [heq] at hplain hslash
  obtain ⟨-, hplus, hhash⟩ := hplain d List.mem_cons_self
  exact ⟨d, tail, heq, fun h => hslash (h ▸ List.mem_cons_self), hplus, hhash⟩

theorem wellFormed_of_cons (h : ['$', '{'].isPrefixOf (c :: text) = false)
    (hwell : wellFormed (c :: text) = true) : wellFormed text = true := by
  unfold wellFormed at hwell
  rwa [if_neg (Bool.eq_false_iff.1 h)] at hwell

/-- Where a variable is known, a `$` gives way to a character that no wildcard is. -/
theorem fill_of_isPrefixOf (hthing : session.thing? = some thing)
    (h : ['$', '{'].isPrefixOf (c :: text) = true) (hwell : wellFormed (c :: text) = true) :
    c = '$' ∧ ∃ d rest, fill session (c :: text) = d :: rest ∧ d ≠ '/' ∧ d ≠ '+' ∧ d ≠ '#' := by
  unfold wellFormed at hwell
  rw [if_pos h] at hwell
  split at hwell
  · cases hwell
  · next after hknown =>
      obtain ⟨d, tail, hname, hd⟩ := thingName_eq_cons thing
      refine ⟨(List.cons_prefix_cons.1 (List.isPrefixOf_iff_prefix.1 h)).1.symm, d,
        tail ++ fill session after, ?_, hd⟩
      rw [fill_of_afterKnown? hthing hknown, hname, List.cons_append]

/-- Filling in keeps where a text ends a level and where it ends. -/
theorem ends_fill (hthing : session.thing? = some thing) (hwell : wellFormed text = true) :
    endsLevel (fill session text) = endsLevel text ∧
      (fill session text).isEmpty = text.isEmpty := by
  cases text with
  | nil =>
      rw [fill, pieces]
      exact ⟨rfl, rfl⟩
  | cons c rest =>
      cases hopen : ['$', '{'].isPrefixOf (c :: rest) with
      | false =>
          rw [fill_cons hopen]
          exact ⟨rfl, rfl⟩
      | true =>
          obtain ⟨rfl, d, filled, hfill, hslash, -⟩ := fill_of_isPrefixOf hthing hopen hwell
          rw [hfill]
          exact ⟨decide_eq_false hslash, rfl⟩

/-- Filling in keeps the wildcard that a text starts with where a level starts. -/
theorem opening_fill (hthing : session.thing? = some thing) (hwell : wellFormed text = true) :
    opening (fill session text) = opening text := by
  cases text with
  | nil =>
      rw [fill, pieces]
      rfl
  | cons c rest =>
      cases hopen : ['$', '{'].isPrefixOf (c :: rest) with
      | false =>
          obtain ⟨hends, hempty⟩ := ends_fill hthing (wellFormed_of_cons hopen hwell)
          rw [fill_cons hopen]
          exact opening_cons_congr hends hempty
      | true =>
          obtain ⟨rfl, d, filled, hfill, -, hplus, hhash⟩ := fill_of_isPrefixOf hthing hopen hwell
          rw [hfill]
          simp [opening, hplus, hhash]

/-! ### Wildcards before and after -/

/-- Behind a name that ends with a `:` a level starts, and behind any other name none. -/
theorem wildcards_behind_thingName (hthing : session.thing? = some thing)
    (hwell : wellFormed text = true) :
    wildcards (tokensAfter thing.name.toList.getLast? (fill session text)) =
      (if thing.name.toList.getLast? = some ':' then (opening text).toList else []) ++
        wildcards (tokensAfter (some '}') (fill session text)) := by
  have hbrace : startsLevel (some '}') = false ∧ some '}' ≠ some '*' := by decide
  split
  · next hcolon =>
      rw [hcolon, ← opening_fill hthing hwell]
      exact wildcards_tokensAfter rfl hbrace.1 hbrace.2 _
  · next hcolon =>
      obtain ⟨hplain, hslash⟩ := isPlain_thingName thing
      have hmem (d : Char) (hd : thing.name.toList.getLast? = some d) : d ∈ thing.name.toList :=
        List.mem_of_getLast? hd
      have hnone : thing.name.toList.getLast? ≠ none := by
        rw [Ne, List.getLast?_eq_none_iff]
        exact thingName_ne_nil thing
      have hstart : startsLevel thing.name.toList.getLast? = false := by
        unfold startsLevel
        simp only [hnone, hcolon, decide_false, Bool.false_or, Bool.or_false, decide_eq_false_iff_not]
        exact fun h => hslash (hmem _ h)
      rw [List.nil_append, tokensAfter_congr (hstart.trans hbrace.1.symm)
        (fun h => (hplain _ (hmem _ h)).1 rfl) hbrace.2]

/-- Filling in keeps the wildcards of a text, and adds some exactly if a name that ends with a `:`
opens a level. -/
theorem wildcards_fill (hthing : session.thing? = some thing) (hwell : wellFormed text = true)
    (before : Option Char) :
    (wildcards (tokensAfter before text)).Sublist
        (wildcards (tokensAfter before (fill session text))) ∧
      (wildcards (tokensAfter before (fill session text)) = wildcards (tokensAfter before text) ↔
        ¬(thing.name.toList.getLast? = some ':' ∧ OpensBehindVariable text)) := by
  fun_induction wellFormed text generalizing before with
  | case1 =>
      rw [fill, pieces]
      exact ⟨List.Sublist.refl _, iff_of_true rfl fun h => not_opensBehindVariable_nil h.2⟩
  | case2 c rest hopen hknown => cases hwell
  | case3 c rest hopen after hknown hlt ih =>
      obtain ⟨spelling, hspelling, hsame⟩ := exists_spelling_of_afterKnown? hknown
      obtain ⟨⟨tail, htail, -⟩, hplain, hlast⟩ := spelling_eq hsame
      obtain ⟨hsub, heq⟩ := ih hwell (some '}')
      have hne : spelling ≠ [] := htail ▸ List.cons_ne_nil _ _
      rw [fill_of_afterKnown? hthing hknown, opensBehindVariable_of_afterKnown? hknown, hspelling,
        wildcards_plain_append hplain hne, hlast,
        wildcards_plain_append (isPlain_thingName thing).1 (thingName_ne_nil thing),
        wildcards_behind_thingName hthing hwell]
      refine ⟨hsub.trans (List.sublist_append_right _ _), ?_⟩
      by_cases hcolon : thing.name.toList.getLast? = some ':'
      · rw [if_pos hcolon, and_iff_right hcolon]
        rw [and_iff_right hcolon] at heq
        cases hopening : opening after with
        | none => simpa using heq
        | some t =>
            refine iff_of_false (fun hsame => ?_) fun hno => hno (.inl rfl)
            have hlength := congrArg List.length hsame
            have hle := hsub.length_le
            simp only [Option.toList_some, List.singleton_append, List.length_cons] at hlength
            omega
      · rw [if_neg hcolon, List.nil_append]
        exact iff_of_true (heq.2 fun h => hcolon h.1) fun h => hcolon h.1
  | case4 c rest hopen after hknown hlt => cases hwell
  | case5 c rest hopen ih =>
      have hplain := Bool.eq_false_iff.2 hopen
      obtain ⟨hends, hempty⟩ := ends_fill hthing hwell
      obtain ⟨hsub, heq⟩ := ih hwell (some c)
      rw [fill_cons hplain, opensBehindVariable_cons hplain, tokensAfter_cons, tokensAfter_cons,
        tokenAt_congr hends hempty]
      by_cases hrun : c = '*' ∧ before = some '*'
      · rw [if_pos hrun, if_pos hrun]
        exact ⟨hsub, heq⟩
      · rw [if_neg hrun, if_neg hrun, wildcards_cons _ (tokensAfter _ rest),
          wildcards_cons _ (tokensAfter _ (fill session rest)), List.append_right_inj]
        exact ⟨hsub.append_left _, heq⟩

/-- **Names in the place of variables.**  If the name of a thing is put in the place of the variables of
a checked resource, no wildcard is lost, and the wildcards are the same ones unless the name ends with a
`:` and a variable is followed by a `+` that ends its level or by a last `#`. -/
theorem wildcards_substitute {resource : String} (hvalid : isValid resource = true)
    (hthing : session.thing? = some thing) :
    (wildcards (tokens resource.toList)).Sublist
        (wildcards (tokens (substitute resource session).toList)) ∧
      (wildcards (tokens (substitute resource session).toList) =
          wildcards (tokens resource.toList) ↔
        ¬(thing.name.toList.getLast? = some ':' ∧ OpensBehindVariable resource.toList)) := by
  rw [toList_substitute]
  exact wildcards_fill hthing hvalid none

/-- A name that starts with a `:` changes no wildcard, and leaves the `+` behind it a character. -/
theorem wildcards_substitute_probe :
    let session := sessionOf ⟨":7", rfl⟩
    let resource := "mqtt:topic:data/$\x7biot:Connection.Thing.ThingName\x7d+/+/*"
    isValid resource = true ∧ wildcards (tokens resource.toList) = [.level, .anyText] ∧
      wildcards (tokens (substitute resource session).toList) = [.level, .anyText] := by
  intro session resource
  have hvalid : isValid resource = true := by decide +kernel
  have hbefore : wildcards (tokens resource.toList) = [.level, .anyText] := by decide +kernel
  have hname : (":7" : String).toList.getLast? ≠ some ':' := by decide
  have hthing : session.thing? = some ⟨":7", rfl⟩ := rfl
  refine ⟨hvalid, hbefore, ?_⟩
  rw [(wildcards_substitute hvalid hthing).2.2 fun h => hname h.1, hbefore]

/-- A name that ends with a `:` makes a wildcard of the `+` behind it. -/
theorem wildcards_substitute_opened :
    let session := sessionOf ⟨"a:", rfl⟩
    let resource := "mqtt:topic:$\x7biot:Connection.Thing.ThingName\x7d+"
    isValid resource = true ∧ wildcards (tokens resource.toList) = [] ∧
      wildcards (tokens (substitute resource session).toList) = [.level] ∧
      covers (substitute resource session) "mqtt:topic:a:b" = true := by
  decide +kernel

end PolicyVariable

end DeviceAccess
