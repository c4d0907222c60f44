import DeviceAccess.Proofs.Policy.Grants

/-!
# No request meets an unresolved variable

Three readers look at the variables of a resource: the check of a document, the search for candidates
and the substitution.  They agree on the known variables: where the check finds one, the search finds
the same text and the substitution knows it (`candidate?_of_afterKnown?`).  A name that stands for a
variable has neither `$` nor `{`, so nothing new is spelled where it meets the text around it, and a
checked resource keeps no `${` (`not_infix_fill`).

Rules ask for the thing's name in every term, and every alternative of a rule that was read has a term
(`Rule.selects_eq_of_parse`), so a session without a thing is in no group.  `Groups.permissionsFor_apply`
puts the two together.
-/

namespace DeviceAccess

/-! ### Known variables -/

namespace PolicyVariable

theorem isShapeLetter_of_isLower_toLower {c : Char} (h : c.toLower.isLower = true) :
    isShapeLetter c = true := by
  have halpha : (c.isUpper || c.isLower) = true := by
    unfold Char.toLower at h
    split at h
    · next hupper => exact (Bool.or_eq_true _ _).mpr (.inl (decide_eq_true hupper))
    · exact (Bool.or_eq_true _ _).mpr (.inr h)
  show (c.isUpper || c.isLower || c = '\u017f' || c = '\u212a') = true
  rw [halpha, Bool.true_or, Bool.true_or]

/-- Only letters change their case. -/
theorem eq_of_toLower_eq {c d : Char} (h : c.toLower = d) (hd : d.isLower = false) : c = d := by
  unfold Char.toLower at h
  split at h
  · next hupper =>
      subst h
      replace hd : (decide (c.val + ('a'.val - 'A'.val) ≥ 'a'.val) &&
        decide (c.val + ('a'.val - 'A'.val) ≤ 'z'.val)) = false := hd
      simp [UInt32.le_iff_toNat_le, UInt32.toNat_add] at hd hupper
      omega
  · exact h

/-- A text of a variable's shape is a candidate, up to its brace. -/
theorem candidate?_eq {space inner : List Char} (after : List Char) (hspace : space ≠ [])
    (hletters : ∀ c ∈ space, isShapeLetter c = true) (hinner : inner ≠ [])
    (hpath : ∀ c ∈ inner, (isShapeLetter c || c = '.') = true) :
    candidate? ('$' :: '{' :: (space ++ ':' :: (inner ++ '}' :: after))) =
      some ('$' :: '{' :: space ++ ':' :: inner ++ ['}'], after) := by
  have hcolon : isShapeLetter ':' = false := by decide
  have hbrace : (isShapeLetter '}' || '}' = '.') = false := by decide
  have hspaceEmpty : space.isEmpty = false := by simpa using hspace
  have hinnerEmpty : inner.isEmpty = false := by simpa using hinner
  unfold candidate?
  simp only [List.takeWhile_append_of_pos hletters, List.dropWhile_append_of_pos hletters,
    List.takeWhile_cons, List.dropWhile_cons, hcolon, Bool.false_eq_true, if_false, List.append_nil,
    hspaceEmpty, List.takeWhile_append_of_pos hpath, List.dropWhile_append_of_pos hpath, hbrace,
    hinnerEmpty]

/-- The token of the variable, in small letters. -/
theorem map_toLower_token : thingName.token.toList.map Char.toLower =
    '$' :: '{' :: ("iot".toList ++ ':' :: ("connection.thing.thingname".toList ++ ['}'])) := by
  decide

/-- A spelling of the variable has the shape of a variable. -/
theorem candidate?_of_sameLetters {token : List Char}
    (h : sameLetters thingName.token.toList token = true) (after : List Char) :
    candidate? (token ++ after) = some (token, after) := by
  have hmap : token.map Char.toLower = thingName.token.toList.map Char.toLower :=
    (of_decide_eq_true h).symm
  rw [map_toLower_token] at hmap
  obtain ⟨dollar, _, rfl, hdollar, hmap⟩ := List.map_eq_cons_iff.1 hmap
  obtain ⟨brace, _, rfl, hbrace, hmap⟩ := List.map_eq_cons_iff.1 hmap
  obtain ⟨space, _, rfl, hspace, hmap⟩ := List.map_eq_append_iff.1 hmap
  obtain ⟨colon, _, rfl, hcolon, hmap⟩ := List.map_eq_cons_iff.1 hmap
  obtain ⟨inner, _, rfl, hinner, hmap⟩ := List.map_eq_append_iff.1 hmap
  obtain ⟨close, _, rfl, hclose, hmap⟩ := List.map_eq_cons_iff.1 hmap
  obtain rfl := List.map_eq_nil_iff.1 hmap
  obtain rfl := eq_of_toLower_eq hdollar (by decide)
  obtain rfl := eq_of_toLower_eq hbrace (by decide)
  obtain rfl := eq_of_toLower_eq hcolon (by decide)
  obtain rfl := eq_of_toLower_eq hclose (by decide)
  have hletters : ∀ c ∈ space, isShapeLetter c = true := by
    intro c hc
    have hall : ("iot".toList.all Char.isLower) = true := by decide
    exact isShapeLetter_of_isLower_toLower
      (List.all_eq_true.1 hall _ (hspace ▸ List.mem_map_of_mem hc))
  have hpath : ∀ c ∈ inner, (isShapeLetter c || c = '.') = true := by
    intro c hc
    have hall : ("connection.thing.thingname".toList.all fun d => d.isLower || d = '.') = true := by
      decide
    have hc := List.all_eq_true.1 hall _ (hinner ▸ List.mem_map_of_mem hc)
    rw [Bool.or_eq_true] at hc
    rcases hc with hletter | hdot
    · rw [isShapeLetter_of_isLower_toLower hletter, Bool.true_or]
    · rw [eq_of_toLower_eq (of_decide_eq_true hdot) (by decide)]
      decide
  have hspaceNonempty : space ≠ [] := by
    rintro rfl
    cases hspace
  have hinnerNonempty : inner ≠ [] := by
    rintro rfl
    cases hinner
  simpa using candidate?_eq after hspaceNonempty hletters hinnerNonempty hpath

/-- Where the check finds a known variable, the search finds it too. -/
theorem candidate?_of_afterKnown? {text after : List Char} (h : afterKnown? text = some after) :
    ∃ token, candidate? text = some (token, after) ∧ lookup token = some thingName := by
  unfold afterKnown? at h
  obtain ⟨v, hfind, rfl⟩ := Option.map_eq_some_iff.1 h
  obtain rfl : v = thingName := by simpa [catalog] using List.mem_of_find?_eq_some hfind
  have hsame : sameLetters thingName.token.toList (text.take thingName.token.length) = true := by
    simpa using List.find?_some hfind
  refine ⟨text.take thingName.token.length, ?_, ?_⟩
  · have hcandidate := candidate?_of_sameLetters hsame (text.drop thingName.token.length)
    rwa [List.take_append_drop] at hcandidate
  · exact List.find?_cons_of_pos hsame

/-- Where no `${` stands there is no candidate. -/
theorem candidate?_eq_none {text : List Char} (h : ['$', '{'].isPrefixOf text = false) :
    candidate? text = none := by
  unfold candidate?
  split
  · simp at h
  · rfl

/-! ### Filling in a name -/

/-- A text with what a session knows in the place of its variables. -/
def fill (session : Session) (text : List Char) : List Char :=
  (pieces text).flatMap (Piece.fill session)

theorem toList_substitute (resource : String) (session : Session) :
    (substitute resource session).toList = fill session resource.toList := by
  unfold substitute fill
  rw [String.toList_ofList]

variable {session : Session} {thing : Thing}

theorem identityAttribute_thingName (h : session.thing? = some thing) :
    session.identityAttribute thingName.facet thingName.attributeName = some thing.name := by
  unfold Session.identityAttribute Session.thingName?
  rw [h]
  rfl

theorem fill_of_afterKnown? {text after : List Char} (hthing : session.thing? = some thing)
    (h : afterKnown? text = some after) :
    fill session text = thing.name.toList ++ fill session after := by
  obtain ⟨token, hcandidate, hlookup⟩ := candidate?_of_afterKnown? h
  unfold fill
  rw [pieces]
  split
  · next hfound =>
      obtain ⟨rfl, rfl⟩ := Prod.mk.inj (Option.some.inj (hcandidate.symm.trans hfound))
      rw [List.flatMap_cons, Piece.fill, hlookup, Option.bind_some,
        identityAttribute_thingName hthing]
  · next hnone =>
      rw [hnone] at hcandidate
      cases hcandidate

/-- A character that starts no candidate stays. -/
theorem fill_cons_of_candidate?_eq_none {c : Char} {rest : List Char}
    (h : candidate? (c :: rest) = none) : fill session (c :: rest) = c :: fill session rest := by
  unfold fill
  rw [pieces]
  split
  · next hfound =>
      rw [h] at hfound
      cases hfound
  · rfl

theorem fill_cons {c : Char} {rest : List Char} (h : ['$', '{'].isPrefixOf (c :: rest) = false) :
    fill session (c :: rest) = c :: fill session rest :=
  fill_cons_of_candidate?_eq_none (candidate?_eq_none h)

/-- A thing's name has neither of the characters that variables start with. -/
theorem not_mem_thingName (thing : Thing) : '$' ∉ thing.name.toList ∧ '{' ∉ thing.name.toList := by
  have hname := thing.isName_name
  unfold Thing.isName at hname
  rw [Bool.and_eq_true, List.all_eq_true] at hname
  exact ⟨fun h => absurd (hname.2 _ h) (by decide), fun h => absurd (hname.2 _ h) (by decide)⟩

theorem thingName_ne_nil (thing : Thing) : thing.name.toList ≠ [] := by
  have hname := thing.isName_name
  unfold Thing.isName at hname
  rw [Bool.and_eq_true] at hname
  simpa using hname.1

/-- What is filled in never starts with a brace of its own. -/
theorem head?_of_head?_fill {text : List Char} (hthing : session.thing? = some thing)
    (hwell : wellFormed text = true) (h : (fill session text).head? = some '{') :
    text.head? = some '{' := by
  cases text with
  | nil =>
      rw [fill, pieces] at h
      exact h
  | cons c rest =>
      cases hopen : ['$', '{'].isPrefixOf (c :: rest) with
      | false =>
          rw [fill_cons hopen] at h
          exact h
      | true =>
          unfold wellFormed at hwell
          rw [if_pos hopen] at hwell
          split at hwell
          · cases hwell
          · next after hknown =>
              rw [fill_of_afterKnown? hthing hknown,
                List.head?_append_of_ne_nil _ (thingName_ne_nil thing)] at h
              exact absurd (List.mem_of_mem_head? h) (not_mem_thingName thing).2

theorem mem_or_infix_of_infix_append {before after : List Char}
    (h : ['$', '{'] <:+: before ++ after) : '$' ∈ before ∨ ['$', '{'] <:+: after := by
  rcases List.infix_append_iff.1 h with hbefore | hafter | ⟨l, r, hsplit, hsuffix, hprefix⟩
  · exact Or.inl (hbefore.subset List.mem_cons_self)
  · exact Or.inr hafter
  · cases l with
    | nil => exact Or.inr (hsplit ▸ hprefix.isInfix)
    | cons c l =>
        obtain ⟨rfl, -⟩ := List.cons.inj hsplit
        exact Or.inl (hsuffix.subset List.mem_cons_self)

/-- **A checked resource keeps no variable.**  With the name of a thing in the place of its
variables it has no `${`. -/
theorem not_infix_fill (hthing : session.thing? = some thing) (text : List Char)
    (hwell : wellFormed text = true) : ¬['$', '{'] <:+: fill session text := by
  fun_induction wellFormed text with
  | case1 =>
      rw [fill, pieces]
      exact fun h => absurd (List.eq_nil_of_infix_nil h) (by decide)
  | case2 c rest hopen hknown => cases hwell
  | case3 c rest hopen after hknown hlt ih =>
      rw [fill_of_afterKnown? hthing hknown]
      intro hinfix
      rcases mem_or_infix_of_infix_append hinfix with hmem | hafter
      · exact (not_mem_thingName thing).1 hmem
      · exact ih hwell hafter
  | case4 c rest hopen after hknown hlt => cases hwell
  | case5 c rest hopen ih =>
      rw [fill_cons (Bool.eq_false_iff.2 hopen)]
      intro hinfix
      rcases List.infix_cons_iff.1 hinfix with hprefix | hrest
      · obtain ⟨rfl, tail, htail⟩ := List.cons_prefix_cons.1 hprefix
        -- the brace after the `$` was there before anything was filled in
        have hhead : (fill session rest).head? = some '{' := by rw [← htail]; rfl
        obtain ⟨rest', rfl⟩ := List.head?_eq_some_iff.1 (head?_of_head?_fill hthing hwell hhead)
        exact hopen (by simp)
      · exact ih hwell hrest

theorem not_infix_substitute {resource : String} (hthing : session.thing? = some thing)
    (hvalid : isValid resource = true) : ¬['$', '{'] <:+: (substitute resource session).toList := by
  rw [toList_substitute]
  exact not_infix_fill hthing _ hvalid

end PolicyVariable

/-! ### Rules -/

namespace Rule

/-- No alternative is without a term: each is closed after a term was read. -/
theorem ne_nil_of_mem_alternativesAfter {source : String} {pending : List Glob}
    {tokens : List Token} {alternatives : List (List Glob)}
    (h : alternativesAfter source pending tokens = .ok alternatives) :
    ∀ globs ∈ alternatives, globs ≠ [] := by
  fun_induction alternativesAfter source pending tokens generalizing alternatives with
  | case1 pending tokens e hterm => cases h
  | case2 pending tokens glob terms hterm =>
      cases h
      simp [terms]
  | case3 pending tokens glob terms after hterm =>
      rename_i ih
      exact ih h
  | case4 pending tokens glob terms after hterm hand =>
      rename_i ih
      obtain ⟨others, hothers, rfl⟩ := map_eq_ok_iff.1 h
      intro globs hmem
      rcases List.mem_cons.1 hmem with rfl | hmem
      · simp [terms]
      · exact ih hothers globs hmem
  | case5 pending tokens glob terms t after hterm hand hor => cases h

/-- **A rule is decided term by term.**  Of some alternative every term accepts the name of the
session's thing; a session without a thing satisfies no term. -/
theorem selects_eq_of_parse {source : String} {r : Rule} (h : parse source = .ok r)
    (session : Session) : r.selects session =
      r.alternatives.any fun globs => globs.all fun glob => session.thingName?.any glob.accepts := by
  unfold parse at h
  obtain ⟨tokens, -, h⟩ := bind_eq_ok_iff.1 h
  obtain ⟨alternatives, hread, h⟩ := bind_eq_ok_iff.1 h
  obtain rfl := Except.ok.inj h
  unfold selects accepts
  cases session.thingName? with
  | some name => rfl
  | none =>
      symm
      rw [List.any_eq_false]
      intro globs hmem
      obtain ⟨glob, rest, rfl⟩ := List.exists_cons_of_ne_nil
        (ne_nil_of_mem_alternativesAfter hread globs hmem)
      simp

end Rule

/-! ### What sessions are granted -/

namespace Groups

variable {document : GroupDocument} {c : Groups} {session : Session}

/-- Every resource of a compiled group passed the check of its document. -/
theorem isValid_of_mem_permissions (h : ofDocument document = .ok c) {g : Group} (hg : g ∈ c.groups)
    {p : Permission} (hp : p ∈ g.permissions) :
    ∃ operation resource, p = .ofPolicy g.name operation resource ∧
      PolicyVariable.isValid resource = true := by
  obtain ⟨name, definition, -, hcompile⟩ := (mem_groups_iff h).1 hg
  obtain ⟨policy, rule, hpolicy, -, rfl⟩ := compile_eq_ok_iff.1 hcompile
  obtain ⟨key, statement, hkey, -, o, -, -, r, hr, -, rfl⟩ := mem_expand.1 hp
  refine ⟨o, r, rfl, ?_⟩
  have hnone := (ofDocument_eq_ok_iff.1 h).2.1
  unfold unknownVariable? at hnone
  have hmem : r ∈ document.policies.values.flatMap fun policy =>
      policy.values.flatMap fun statement => statement.resources.toList := by
    refine List.mem_flatMap.2 ⟨policy, ?_, List.mem_flatMap.2 ⟨statement, ?_, hr⟩⟩
    · exact OrderedMap.mem_values.2 ⟨_, OrderedMap.get?_eq_some_iff.1 hpolicy⟩
    · exact OrderedMap.mem_values.2 ⟨_, OrderedMap.get?_eq_some_iff.1 hkey⟩
  simpa using List.find?_eq_none.1 hnone r hmem

theorem selects_eq_of_mem_groups (h : ofDocument document = .ok c) {g : Group} (hg : g ∈ c.groups)
    (session : Session) : g.rule.selects session = g.rule.alternatives.any fun globs =>
      globs.all fun glob => session.thingName?.any glob.accepts := by
  obtain ⟨name, definition, -, hcompile⟩ := (mem_groups_iff h).1 hg
  obtain ⟨policy, rule, -, hrule, rfl⟩ := compile_eq_ok_iff.1 hcompile
  exact Rule.selects_eq_of_parse hrule session

/-- **No request meets an unresolved variable.**  After a document was accepted, groups are chosen term
by term, a session without a thing is granted nothing, and no resource that is granted to a session
still has a `${`. -/
theorem permissionsFor_apply (c : Groups) (document : GroupDocument)
    (haccepted : (c.apply document).2 = .ok ()) (session : Session) :
    let inForce := (c.apply document).1
    (∀ g ∈ inForce.groups, g.rule.selects session = g.rule.alternatives.any fun globs =>
      globs.all fun glob => session.thingName?.any glob.accepts) ∧
    ((∀ thing, session.facet ≠ .resolved (some thing)) → inForce.permissionsFor session = ∅) ∧
    ∀ granted ∈ (inForce.permissionsFor session).values, ∀ p ∈ granted,
      ¬['$', '{'] <:+: p.resource.toList := by
  intro inForce
  have hdocument : ofDocument document = .ok inForce := by
    have happly : c.apply document = (inForce, .ok ()) := Prod.ext rfl haccepted
    unfold apply at happly
    split at happly
    · next groups hgroups => rw [hgroups, (Prod.mk.inj happly).1]
    · next e _ => cases (Prod.mk.inj happly).2
  have hnames : (inForce.groups.map (·.name)).Nodup := by
    rw [names_of_ofDocument hdocument]
    exact document.definitions.increasing.nodup
  refine ⟨fun g hg => selects_eq_of_mem_groups hdocument hg session, ?_, ?_⟩
  · intro hnone
    have hname : session.thingName? = none := by
      unfold Session.thingName? Session.thing?
      cases hfacet : session.facet with
      | unresolved => rfl
      | resolved thing? =>
          cases thing? with
          | none => rfl
          | some thing => exact absurd hfacet (hnone thing)
    have happlicable : inForce.applicable session = [] := by
      refine List.filter_eq_nil_iff.2 fun g _ => ?_
      unfold Rule.selects
      rw [hname]
      exact Bool.false_ne_true
    unfold permissionsFor
    rw [happlicable]
    rfl
  · intro granted hgranted p hp
    obtain ⟨g, hg, hselects, rfl⟩ := (mem_values_permissionsFor hnames).1 hgranted
    obtain ⟨q, hq, rfl⟩ := List.mem_map.1 (OrderedSet.mem_ofList.1 hp)
    obtain ⟨operation, resource, rfl, hvalid⟩ := isValid_of_mem_permissions hdocument hg hq
    rw [Permission.resource_resolve_ofPolicy]
    unfold Rule.selects Session.thingName? at hselects
    cases hthing : session.thing? with
    | none =>
        rw [hthing] at hselects
        cases hselects
    | some thing => exact PolicyVariable.not_infix_substitute hthing hvalid

/-- A sensor is granted its own topics by name, and a component without a thing nothing. -/
theorem permissionsFor_ownTelemetry :
    (empty.apply ownTelemetry).2 = .ok () ∧
      (empty.apply ownTelemetry).1.permissionsFor .ofComponent = ∅ ∧
      (((empty.apply ownTelemetry).1.permissionsFor sensorSession).values.map fun granted =>
        granted.toList.map (·.resource)) = [["mqtt:topic:telemetry/sensor-7/#"]] ∧
      ∀ granted ∈ ((empty.apply ownTelemetry).1.permissionsFor sensorSession).values,
        ∀ p ∈ granted, ¬['$', '{'] <:+: p.resource.toList := by
  have haccepted : (empty.apply ownTelemetry).2 = .ok () := by decide +kernel
  exact ⟨haccepted, (permissionsFor_apply empty ownTelemetry haccepted .ofComponent).2.1 nofun,
    by decide +kernel, (permissionsFor_apply empty ownTelemetry haccepted sensorSession).2.2⟩

end Groups

end DeviceAccess
