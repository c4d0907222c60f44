import Mathlib.Data.List.TakeWhile
import DeviceAccess.Proofs.Policy.Insertion

/-!
# Every variable is replaced, and nothing else

A resource may hold anything beside the variable: tokens that are cut off, nested or unknown, and
letters that only look like those of the variable.  The check, the search for candidates and the
substitution read it in three ways.  What they come to is said here without any of them:

* a resource is valid if every `${` starts a spelling of the variable;
* resolved for a thing, every spelling of the variable in it gives way to the thing's name and every
  other character stays (`PolicyVariable.Replaced`), whether or not the resource is valid;
* resolved without a thing it stays as it is.

A spelling has its only `$` at its front, so spellings do not overlap, and a candidate that is no
spelling has none inside (`PolicyVariable.fill_cons_of_not_startsVariable`).
-/

namespace DeviceAccess

namespace PolicyVariable

variable {session : Session} {thing : Thing} {name text token rest out : List Char} {c : Char}

/-- The text starts with a spelling of the variable: its token, up to the case of ASCII letters. -/
def StartsVariable (text : List Char) : Prop :=
  ∃ spelling after, text = spelling ++ after ∧ sameLetters thingName.token.toList spelling = true

/-- From the text to the text with `name` in the place of every spelling of the variable. -/
inductive Replaced (name : List Char) : List Char → List Char → Prop where
  | nil : Replaced name [] []
  | spelling {spelling text out : List Char}
      (h : sameLetters thingName.token.toList spelling = true) (hrest : Replaced name text out) :
      Replaced name (spelling ++ text) (name ++ out)
  | other {c : Char} {text out : List Char} (h : ¬StartsVariable (c :: text))
      (hrest : Replaced name text out) : Replaced name (c :: text) (c :: out)

/-! ### Where variables start -/

theorem startsVariable_iff : StartsVariable text ↔ ∃ after, afterKnown? text = some after := by
  constructor
  · rintro ⟨spelling, after, rfl, hspelling⟩
    exact ⟨after, afterKnown?_append hspelling after⟩
  · rintro ⟨after, h⟩
    obtain ⟨spelling, rfl, hspelling⟩ := exists_spelling_of_afterKnown? h
    exact ⟨spelling, after, rfl, hspelling⟩

/-- The token of a known variable is a spelling of it. -/
theorem eq_thingName_of_lookup {v : PolicyVariable} (h : lookup token = some v) :
    v = thingName ∧ sameLetters thingName.token.toList token = true := by
  obtain rfl : v = thingName := by simpa [catalog] using List.mem_of_find?_eq_some h
  exact ⟨rfl, by simpa using List.find?_some h⟩

/-- A candidate has its only `$` at its front. -/
theorem exists_tail_of_candidate? (h : candidate? text = some (token, rest)) :
    ∃ tail, token = '$' :: tail ∧ '$' ∉ tail := by
  unfold candidate? at h
  split at h
  · next body =>
      simp only at h
      split at h
      · next path _ hpath =>
          split at h
          · next rest' _ hrest =>
              obtain ⟨rfl, rfl⟩ := Prod.mk.inj (Option.some.inj h)
              refine ⟨_, rfl, ?_⟩
              have hspace : '$' ∉ body.takeWhile isShapeLetter :=
                fun hmem => absurd (List.mem_takeWhile_imp hmem) (by decide)
              have hinner : '$' ∉ path.takeWhile fun c => isShapeLetter c || c = '.' :=
                fun hmem => absurd (List.mem_takeWhile_imp hmem) (by decide)
              simp [hspace, hinner]
          · cases h
      · cases h
  · cases h

/-! ### Filling in, character by character -/

/-- A candidate that is no spelling of the variable stays as it is written. -/
theorem fill_of_candidate? (h : candidate? text = some (token, rest)) (hunknown : lookup token = none) :
    fill session text = token ++ fill session rest := by
  unfold fill
  rw [pieces]
  split
  · next hfound =>
      obtain ⟨rfl, rfl⟩ := Prod.mk.inj (Option.some.inj (h.symm.trans hfound))
      rw [List.flatMap_cons, Piece.fill, hunknown, Option.bind_none]
  · next hnone =>
      rw [hnone] at h
      cases h

/-- A character that starts no variable stays, although a candidate may start with it. -/
theorem fill_cons_of_not_startsVariable (h : ¬StartsVariable (c :: text)) :
    fill session (c :: text) = c :: fill session text := by
  rcases hcandidate : candidate? (c :: text) with _ | ⟨token, rest⟩
  · exact fill_cons_of_candidate?_eq_none hcandidate
  · have hwritten := append_of_candidate? hcandidate
    have hunknown : lookup token = none := by
      refine Option.eq_none_iff_forall_ne_some.2 fun v hv => h ⟨token, rest, hwritten, ?_⟩
      exact (eq_thingName_of_lookup hv).2
    rw [fill_of_candidate? hcandidate hunknown]
    obtain ⟨tail, rfl, htail⟩ := exists_tail_of_candidate? hcandidate
    obtain ⟨rfl, htext⟩ : c = '$' ∧ text = tail ++ rest := List.cons.inj hwritten
    rw [htext, fill_append_of_not_mem htail, List.cons_append]

/-- To fill in a thing's name is to replace every spelling of the variable by it. -/
theorem replaced_iff (hthing : session.thing? = some thing) :
    Replaced thing.name.toList text out ↔ out = fill session text := by
  constructor
  · intro h
    induction h with
    | nil =>
        rw [fill, pieces]
        rfl
    | spelling h hrest ih => rw [fill_of_afterKnown? hthing (afterKnown?_append h _), ih]
    | other h hrest ih => rw [fill_cons_of_not_startsVariable h, ih]
  · rintro rfl
    induction hlength : text.length using Nat.strongRecOn generalizing text with
    | ind n ih =>
        by_cases hstarts : StartsVariable text
        · obtain ⟨spelling, after, rfl, hspelling⟩ := hstarts
          rw [fill_of_afterKnown? hthing (afterKnown?_append hspelling after)]
          refine .spelling hspelling (ih after.length ?_ rfl)
          obtain ⟨⟨tail, rfl, -⟩, -⟩ := spelling_eq hspelling
          simp only [List.length_append, List.length_cons] at hlength
          omega
        · cases text with
          | nil =>
              rw [fill, pieces]
              exact .nil
          | cons c text =>
              rw [fill_cons_of_not_startsVariable hstarts]
              exact .other hstarts (ih text.length (by simp at hlength; omega) rfl)

/-- Without a thing nothing is filled in. -/
theorem fill_eq_self (hthing : session.thing? = none) (text : List Char) :
    fill session text = text := by
  have hwritten : ∀ piece : Piece, piece.fill session = piece.written := by
    intro piece
    cases piece with
    | plain c => rfl
    | candidate token =>
        have hnone : ((lookup token).bind fun v =>
            session.identityAttribute v.facet v.attributeName) = none := by
          cases hlookup : lookup token with
          | none => rfl
          | some v =>
              obtain ⟨rfl, -⟩ := eq_thingName_of_lookup hlookup
              unfold Session.identityAttribute Session.thingName?
              rw [hthing]
              rfl
        rw [Piece.fill, hnone]
        rfl
  unfold fill
  rw [List.flatMap_congr fun piece _ => hwritten piece, written_pieces]

/-! ### Valid resources -/

/-- Every `${` starts a spelling of the variable. -/
def AllKnown (text : List Char) : Prop :=
  ∀ before after, text = before ++ '$' :: '{' :: after → StartsVariable ('$' :: '{' :: after)

/-- A `${` behind a spelling of the variable is behind all of it. -/
theorem allKnown_spelling_append {spelling : List Char}
    (h : sameLetters thingName.token.toList spelling = true) (text : List Char) :
    AllKnown (spelling ++ text) ↔ AllKnown text := by
  constructor
  · rintro hknown before after rfl
    exact hknown (spelling ++ before) after (List.append_assoc ..).symm
  · intro hknown before after heq
    obtain ⟨⟨tail, rfl, htail⟩, -⟩ := spelling_eq h
    cases before with
    | nil => exact ⟨_, text, heq.symm, h⟩
    | cons d before =>
        have htext : '{' :: tail ++ text = before ++ '$' :: '{' :: after := (List.cons.inj heq).2
        rcases List.append_eq_append_iff.1 htext with ⟨between, -, hbetween⟩ | ⟨between, hinside, hafter⟩
        · exact hknown between after hbetween
        · cases between with
          | nil => exact hknown [] after hafter.symm
          | cons e between =>
              -- the other `$` would be inside of the spelling
              obtain rfl : '$' = e := (List.cons.inj hafter).1
              have hmem : '$' ∈ '{' :: tail := hinside ▸ List.mem_append_right _ List.mem_cons_self
              exact absurd hmem (by simpa using htail)

theorem allKnown_cons (h : ['$', '{'].isPrefixOf (c :: text) = false) :
    AllKnown (c :: text) ↔ AllKnown text := by
  constructor
  · rintro hknown before after rfl
    exact hknown (c :: before) after rfl
  · intro hknown before after heq
    cases before with
    | nil =>
        rw [heq] at h
        simp at h
    | cons d before => exact hknown before after (List.cons.inj heq).2

theorem wellFormed_iff (text : List Char) : wellFormed text = true ↔ AllKnown text := by
  fun_induction wellFormed text with
  | case1 => exact iff_of_true rfl fun before after h => by simp at h
  | case2 c rest hopen hunknown =>
      refine iff_of_false Bool.false_ne_true fun hknown => ?_
      obtain ⟨after, heq⟩ := List.isPrefixOf_iff_prefix.1 hopen
      obtain ⟨known, hafter⟩ := startsVariable_iff.1 (hknown [] after heq.symm)
      have hnone : afterKnown? ('$' :: '{' :: after) = none := by
        rw [← hunknown, ← heq]
        rfl
      rw [hnone] at hafter
      cases hafter
  | case3 c rest hopen after hafter hlt ih =>
      obtain ⟨spelling, heq, hspelling⟩ := exists_spelling_of_afterKnown? hafter
      rw [ih, heq, allKnown_spelling_append hspelling]
  | case4 c rest hopen after hafter hlt =>
      obtain ⟨spelling, heq, hspelling⟩ := exists_spelling_of_afterKnown? hafter
      obtain ⟨⟨tail, rfl, -⟩, -⟩ := spelling_eq hspelling
      exact absurd (by rw [heq]; simp; omega) hlt
  | case5 c rest hopen ih => rw [ih, allKnown_cons (Bool.eq_false_iff.2 hopen)]

end PolicyVariable

/-- **What becomes of a resource.**  A resource is valid exactly if every `${` in it starts the token of
the variable, up to the case of ASCII letters.  Whether or not it is valid, a permission of a policy that
is resolved for a session has the same resource if the session has no thing; otherwise it has the one
text that results when every spelling of the token gives way to the thing's name and every other
character is kept. -/
theorem Permission.resource_resolve_eq (principal operation resource : String) (session : Session) :
    let resolved := ((ofPolicy principal operation resource).resolve session).resource
    (PolicyVariable.isValid resource = true ↔
      ∀ before after, resource.toList = before ++ '$' :: '{' :: after →
        PolicyVariable.StartsVariable ('$' :: '{' :: after)) ∧
    match session.thing? with
    | none => resolved = resource
    | some thing => ∀ out : String,
        PolicyVariable.Replaced thing.name.toList resource.toList out.toList ↔ out = resolved := by
  intro resolved
  have hresolved : resolved.toList = PolicyVariable.fill session resource.toList := by
    show (Permission.resource _).toList = _
    rw [resource_resolve_ofPolicy, PolicyVariable.toList_substitute]
  refine ⟨PolicyVariable.wellFormed_iff resource.toList, ?_⟩
  cases hthing : session.thing? with
  | none =>
      show resolved = resource
      rw [← String.toList_inj, hresolved, PolicyVariable.fill_eq_self hthing]
  | some thing =>
      intro out
      rw [PolicyVariable.replaced_iff hthing, ← hresolved, String.toList_inj]

/-- Tokens that are cut off or unknown stay, and a spelling between them is replaced. -/
example :
    ((Permission.ofPolicy "group" "mqtt:publish"
        "$\x7biot:$\x7bIOT:connection.thing.thingname\x7d$\x7biot:Other\x7d").resolve
      ((Session.ofCertificate ⟨"hash", "certificate", true⟩).withThing ⟨"pump", by decide⟩)).resource =
    "$\x7biot:pump$\x7biot:Other\x7d" := by
  decide +kernel

end DeviceAccess
