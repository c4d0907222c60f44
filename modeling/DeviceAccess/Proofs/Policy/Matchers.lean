import DeviceAccess.Policy.Glob
import DeviceAccess.Proofs.Policy.Denotation

/-!
# Patterns with a star at either end

Names, operations and resources have matchers of their own.  A pattern that has no `+`, no `#` and no
`*` but as its first and its last character is one for all three, and it has one meaning: a text with
anything in front of it where the pattern starts with a `*`, and with anything behind it where the
pattern ends in one (`IsAround`).  The matchers of names and of resources decide this, and so does the
matcher of operations, which knows a `*` at the end only (`Glob.accepts_eq_covers`).
-/

namespace DeviceAccess

/-- A `*`, or nothing. -/
def starIf (there : Bool) : List Char := if there then ['*'] else []

/-- The text is `body` with something in front of it, if `opened`, and something behind it, if
`closed`. -/
def IsAround (opened closed : Bool) (body text : List Char) : Prop :=
  ∃ before after, text = before ++ (body ++ after) ∧ (opened = false → before = []) ∧
    (closed = false → after = [])

variable {opened closed : Bool} {body text : List Char} {pattern name : String}

theorem isAround_false_iff :
    IsAround false closed body text ↔ ∃ after, text = body ++ after ∧ (closed = false → after = []) := by
  constructor
  · rintro ⟨before, after, rfl, hbefore, hafter⟩
    rw [hbefore rfl]
    exact ⟨after, rfl, hafter⟩
  · rintro ⟨after, rfl, hafter⟩
    exact ⟨[], after, rfl, fun _ => rfl, hafter⟩

theorem isAround_false_false_iff : IsAround false false body text ↔ text = body := by
  simp [isAround_false_iff]

theorem isAround_false_true_iff : IsAround false true body text ↔ body <+: text := by
  simp [isAround_false_iff, List.IsPrefix, eq_comm]

theorem isAround_true_false_iff : IsAround true false body text ↔ body <:+ text := by
  simp [IsAround, List.IsSuffix, eq_comm]

theorem isAround_true_true_iff : IsAround true true body text ↔ body <:+: text := by
  simp [IsAround, List.IsInfix, eq_comm]

/-- A text whose stars are at its ends, taken apart; no star is taken for the first one if the text
does not start with one or is a star only. -/
theorem exists_eq_starIf_append (h : '*' ∉ text.tail.dropLast) : ∃ opened body closed,
    text = starIf opened ++ (body ++ starIf closed) ∧ '*' ∉ body ∧
      (text = ['*'] ∨ text.head? ≠ some '*' → opened = false) := by
  rcases text with _ | ⟨c, rest⟩
  · exact ⟨false, [], false, rfl, List.not_mem_nil, fun _ => rfl⟩
  rcases List.eq_nil_or_concat' rest with rfl | ⟨mid, d, rfl⟩
  · by_cases hc : c = '*'
    · exact ⟨false, [], true, by rw [hc]; rfl, List.not_mem_nil, fun _ => rfl⟩
    · exact ⟨false, [c], false, rfl, by simpa using Ne.symm hc, fun _ => rfl⟩
  · rw [List.tail_cons, List.dropLast_concat] at h
    have hlast : ∃ last closed, [d] = last ++ starIf closed ∧ '*' ∉ last := by
      by_cases hd : d = '*'
      · exact ⟨[], true, by rw [hd]; rfl, List.not_mem_nil⟩
      · exact ⟨[d], false, rfl, by simpa using Ne.symm hd⟩
    obtain ⟨last, closed, hlast, hno⟩ := hlast
    rw [hlast]
    by_cases hc : c = '*'
    · subst hc
      refine ⟨true, mid ++ last, closed, ?_, ?_, ?_⟩
      · rw [List.append_assoc]
        rfl
      · exact List.not_mem_append h hno
      · rintro (hstar | hhead)
        · rw [← hlast] at hstar
          simp at hstar
        · exact absurd rfl hhead
    · refine ⟨false, c :: (mid ++ last), closed, ?_, ?_, fun _ => rfl⟩
      · rw [List.cons_append, List.append_assoc]
        rfl
      · exact List.not_mem_cons_of_ne_of_not_mem (Ne.symm hc) (List.not_mem_append h hno)

/-! ### Names -/

theorem occursIn_iff {part : List Char} : occursIn part text = true ↔ part <:+: text := by
  induction text with
  | nil => simp [occursIn]
  | cons c text ih =>
      rw [occursIn, Bool.or_eq_true, ih, List.isPrefixOf_iff_prefix, List.infix_cons_iff]

namespace Glob

/-- The pattern for a text with something in front of it, behind it, both or neither. -/
def around : Bool → Bool → String → Glob
  | false, false => exactly
  | false, true => startingWith
  | true, false => endingWith
  | true, true => containing

/-- What a pattern with stars at its ends is compiled to, if something stands between them. -/
theorem ofPattern_eq (hstar : '*' ∉ body) (hne : body ≠ [])
    (hpattern : pattern.toList = starIf opened ++ (body ++ starIf closed)) :
    ofPattern pattern = around opened closed (String.ofList body) := by
  have hhead : body.head? ≠ some '*' := fun h => hstar (List.mem_of_mem_head? h)
  have hlast : body.getLast? ≠ some '*' := fun h => hstar (List.mem_of_getLast? h)
  have hone : starIf opened ++ (body ++ starIf closed) ≠ ['*'] := by
    obtain ⟨c, hc⟩ := List.exists_mem_of_ne_nil body hne
    intro h
    have hmem : c ∈ starIf opened ++ (body ++ starIf closed) :=
      List.mem_append_right _ (List.mem_append_left _ hc)
    rw [h, List.mem_singleton] at hmem
    exact hstar (hmem ▸ hc)
  have hopened : (starIf opened ++ (body ++ starIf closed)).head? = some '*' ↔ opened = true := by
    cases opened with
    | false => simpa [starIf, List.head?_append_of_ne_nil _ hne] using hhead
    | true => simp [starIf]
  have hbody : (if opened = true then (starIf opened ++ (body ++ starIf closed)).tail
      else starIf opened ++ (body ++ starIf closed)) = body ++ starIf closed := by
    cases opened with
    | _ => rfl
  have hclosed : (body ++ starIf closed).getLast? = some '*' ↔ closed = true := by
    cases closed with
    | false => simpa [starIf] using hlast
    | true => simp [starIf]
  have hinner : (if closed = true then (body ++ starIf closed).dropLast
      else body ++ starIf closed) = body := by
    cases closed with
    | false => simp [starIf]
    | true => simp [starIf]
  unfold ofPattern
  simp only [hpattern, if_neg hone, hopened, hbody, hclosed, hinner, Bool.decide_eq_true]
  match opened, closed with
  | false, false => rfl
  | false, true => rfl
  | true, false => rfl
  | true, true => simp [around, hne]

/-- **What a pattern for names accepts.** -/
theorem accepts_iff (hstar : '*' ∉ body)
    (hpattern : pattern.toList = starIf opened ++ (body ++ starIf closed)) :
    (ofPattern pattern).accepts name = true ↔ IsAround opened closed body name.toList := by
  by_cases hne : body = []
  · subst hne
    obtain rfl : pattern = String.ofList (starIf opened ++ starIf closed) := by
      rw [← String.toList_inj, hpattern, String.toList_ofList]
      rfl
    match opened, closed with
    | false, false =>
        rw [isAround_false_false_iff, String.toList_eq_nil_iff]
        exact decide_eq_true_iff
    | false, true => exact iff_of_true rfl (isAround_false_true_iff.2 (List.nil_prefix ..))
    | true, false => exact iff_of_true rfl (isAround_true_false_iff.2 (List.nil_suffix ..))
    | true, true => exact iff_of_true rfl (isAround_true_true_iff.2 (List.nil_infix ..))
  · rw [ofPattern_eq hstar hne hpattern]
    match opened, closed with
    | false, false => simp [around, accepts, isAround_false_false_iff, ← String.toList_inj]
    | false, true => simp [around, accepts, isAround_false_true_iff]
    | true, false => simp [around, accepts, isAround_true_false_iff]
    | true, true => simp [around, accepts, isAround_true_true_iff, occursIn_iff]

end Glob

/-! ### Operations -/

/-- What a granted operation covers that has no `*` but at its end. -/
theorem Operation.covers_iff (hstar : '*' ∉ body) (hpattern : pattern.toList = body ++ starIf closed) :
    covers pattern name = true ↔ IsAround false closed body name.toList := by
  unfold covers
  simp only [hpattern]
  cases closed with
  | false =>
      have hlast : (body ++ starIf false).getLast? ≠ some '*' := fun h =>
        hstar (List.mem_of_getLast? (by simpa [starIf] using h))
      rw [if_neg hlast, isAround_false_false_iff, decide_eq_true_iff, ← String.toList_inj, hpattern]
      simp [starIf, eq_comm]
  | true => simp [starIf, isAround_false_true_iff]

/-! ### Resources -/

namespace ResourcePattern

/-- Plain characters stand for themselves, and a last `*` for anything behind them. -/
theorem standsFor_append_starIf_iff {before : Option Char} (hstar : '*' ∉ body) (hplus : '+' ∉ body)
    (hhash : '#' ∉ body) :
    StandsFor before (body ++ starIf closed) text ↔ IsAround false closed body text := by
  rw [isAround_false_iff]
  induction body generalizing before text with
  | nil =>
      cases closed with
      | false => simp [starIf, standsFor_nil_iff]
      | true => simp [starIf, standsFor_star_iff, standsFor_nil_iff]
  | cons c body ih =>
      rw [List.mem_cons, not_or] at hstar hplus hhash
      have hplain : ¬IsWildcard before c (body ++ starIf closed) := by
        rintro (rfl | ⟨rfl, -⟩ | ⟨rfl, -⟩)
        · exact hstar.1 rfl
        · exact hplus.1 rfl
        · exact hhash.1 rfl
      have hnext : body ++ starIf closed ≠ ['#'] := by
        intro h
        have hmem : '#' ∈ body ++ starIf closed := by simp [h]
        rcases List.mem_append.1 hmem with hmem | hmem
        · exact hhash.2 hmem
        · cases closed with
          | false => cases hmem
          | true => exact absurd hmem (by decide)
      rw [List.cons_append, standsFor_cons_iff hplain, or_iff_right fun h => hnext h.2.1]
      simp only [ih hstar.2 hplus.2 hhash.2]
      constructor
      · rintro ⟨_, rfl, after, rfl, hafter⟩
        exact ⟨after, rfl, hafter⟩
      · rintro ⟨after, rfl, hafter⟩
        exact ⟨body ++ after, rfl, after, rfl, hafter⟩

/-- What a granted resource covers that has no wildcards but a `*` at either end. -/
theorem covers_iff_isAround (hstar : '*' ∉ body) (hplus : '+' ∉ body) (hhash : '#' ∉ body)
    (hpattern : pattern.toList = starIf opened ++ (body ++ starIf closed)) :
    covers pattern name = true ↔ IsAround opened closed body name.toList := by
  rw [covers_iff_fits, fits_tokens_iff, hpattern]
  cases opened with
  | false => exact standsFor_append_starIf_iff hstar hplus hhash
  | true =>
      show StandsFor none ('*' :: (body ++ starIf closed)) _ ↔ _
      simp only [standsFor_star_iff, standsFor_append_starIf_iff hstar hplus hhash, isAround_false_iff]
      constructor
      · rintro ⟨before, _, htext, after, rfl, hafter⟩
        exact ⟨before, after, htext, nofun, hafter⟩
      · rintro ⟨before, after, htext, -, hafter⟩
        exact ⟨before, _, htext, after, rfl, hafter⟩

end ResourcePattern

/-! ### Where the matchers agree -/

/-- **The three matchers agree.**  For a pattern without `+` and `#` that has a `*` at most as its first
and as its last character, the matcher of names and that of resources give the same answer for every
name.  If the pattern is a `*` or does not start with one, the matcher of operations gives this answer
as well. -/
theorem Glob.accepts_eq_covers (pattern name : String) (hplus : '+' ∉ pattern.toList)
    (hhash : '#' ∉ pattern.toList) (hstar : '*' ∉ pattern.toList.tail.dropLast) :
    (Glob.ofPattern pattern).accepts name = ResourcePattern.covers pattern name ∧
      (pattern = "*" ∨ pattern.toList.head? ≠ some '*' →
        Operation.covers pattern name = ResourcePattern.covers pattern name) := by
  obtain ⟨opened, body, closed, hpattern, hno, hopened⟩ := exists_eq_starIf_append hstar
  have hbody : ∀ c ∈ body, c ∈ pattern.toList := by
    intro c hc
    rw [hpattern]
    exact List.mem_append_right _ (List.mem_append_left _ hc)
  have hresource : ResourcePattern.covers pattern name = true ↔
      IsAround opened closed body name.toList :=
    ResourcePattern.covers_iff_isAround hno (fun hc => hplus (hbody _ hc))
      (fun hc => hhash (hbody _ hc)) hpattern
  refine ⟨Bool.eq_iff_iff.2 ((accepts_iff hno hpattern).trans hresource.symm), fun h => ?_⟩
  obtain rfl : opened = false := hopened (h.imp_left fun hp => congrArg String.toList hp)
  exact Bool.eq_iff_iff.2 ((Operation.covers_iff hno hpattern).trans hresource.symm)

/-- A star at either end, two stars and nothing else, and a last star behind a letter of two bytes. -/
theorem Glob.accepts_eq_covers_stars :
    (Glob.ofPattern "*a/*").accepts "xa/" = ResourcePattern.covers "*a/*" "xa/" ∧
      ResourcePattern.covers "*a/*" "xa/" = true ∧
      (Glob.ofPattern "**").accepts "" = ResourcePattern.covers "**" "" ∧
      Operation.covers "À:*" "À:" = ResourcePattern.covers "À:*" "À:" := by
  exact ⟨(accepts_eq_covers "*a/*" "xa/" (by decide) (by decide) (by decide)).1, by decide,
    (accepts_eq_covers "**" "" (by decide) (by decide) (by decide)).1,
    (accepts_eq_covers "À:*" "À:" (by decide) (by decide) (by decide)).2 (.inr (by decide))⟩

end DeviceAccess
