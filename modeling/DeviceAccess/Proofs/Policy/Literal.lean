import DeviceAccess.Proofs.Policy.TopicFilter

/-!
# Patterns that stand for themselves only

Whether a character of a pattern is a wildcard depends on the characters around it.  A pattern without
wildcards covers itself and nothing else; a pattern with one also covers what is left of it without the
wildcard, since each of the three may stand for nothing (`covers_itself_only_iff`).

A name whose every `+` and `#` shares its level with another character should have no wildcards.  But
a pattern is read without regard to where its name starts, and so a `:` in the name counts as the start
of a level too, as the two before the name do.  Such a name stands for itself only exactly if none of
its levels ends with `:+`, and the last one not with `:#` (`covers_embedded_iff`).
-/

namespace DeviceAccess

namespace Topic

/-- Every `+` and every `#` shares its level with another character. -/
def IsEmbedded (name : List Char) : Prop :=
  ∀ level ∈ levels name, '+' ∈ level ∨ '#' ∈ level → 1 < level.length

instance : DecidablePred IsEmbedded := fun name =>
  inferInstanceAs (Decidable (∀ level ∈ levels name, '+' ∈ level ∨ '#' ∈ level → 1 < level.length))

theorem levels_append_slash (text rest : List Char) :
    levels (text ++ '/' :: rest) = levels text ++ levels rest := by
  unfold levels
  rw [List.splitOn_eq_splitOnP]
  exact List.splitOnP_append_cons _ _ (by simp)

/-- A level that starts behind a `/` is a level of the whole text. -/
theorem levelOf_mem_levels {before : List Char} (rest : List Char)
    (h : ∀ c, before.getLast? = some c → c = '/') :
    ResourcePattern.levelOf rest ∈ levels (before ++ rest) := by
  have hfirst : ResourcePattern.levelOf rest ∈ levels rest := by
    rw [ResourcePattern.levels_eq]
    exact List.mem_cons_self
  rcases List.eq_nil_or_concat before with rfl | ⟨text, c, rfl⟩
  · exact hfirst
  · obtain rfl := h c (by rw [List.concat_eq_append, List.getLast?_concat])
    rw [List.concat_eq_append, List.append_assoc, List.singleton_append, levels_append_slash]
    exact List.mem_append_right _ hfirst

/-- Where a level starts and ends around a character, the character is all of the level. -/
theorem singleton_mem_levels {before after : List Char} {c : Char} (hc : c ≠ '/')
    (hbefore : ∀ d, before.getLast? = some d → d = '/') (hafter : ResourcePattern.AtLevelEnd after) :
    [c] ∈ levels (before ++ c :: after) := by
  have hlevel : ResourcePattern.levelOf ([c] ++ after) = [c] :=
    (ResourcePattern.levelOf_append (by simpa using hc.symm)
      (ResourcePattern.endsLevel_iff.2 hafter)).1
  have hmem := levelOf_mem_levels ([c] ++ after) hbefore
  rw [hlevel] at hmem
  exact hmem

end Topic

namespace ResourcePattern

open Topic

variable {before : Option Char} {c : Char} {pattern text : List Char}

/-! ### Wildcards of a pattern -/

/-- Some character of a pattern that follows `before` is a wildcard. -/
def HasWildcard (before : Option Char) (pattern : List Char) : Prop :=
  ∃ head c after, pattern = head ++ c :: after ∧ IsWildcard (head.getLast?.or before) c after

theorem hasWildcard_cons_iff : HasWildcard before (c :: pattern) ↔
    IsWildcard before c pattern ∨ HasWildcard (some c) pattern := by
  constructor
  · rintro ⟨head, d, after, heq, hwild⟩
    cases head with
    | nil =>
        obtain ⟨rfl, rfl⟩ := List.cons.inj heq
        exact .inl hwild
    | cons e head =>
        obtain ⟨rfl, rfl⟩ := List.cons.inj heq
        exact .inr ⟨head, d, after, rfl, getLast?_cons_or c head before ▸ hwild⟩
  · rintro (hwild | ⟨head, d, after, rfl, hwild⟩)
    · exact ⟨[], c, pattern, rfl, hwild⟩
    · exact ⟨c :: head, d, after, rfl, (getLast?_cons_or c head before).symm ▸ hwild⟩

/-- A wildcard is one of the three characters, so none is among plain ones. -/
theorem hasWildcard_plain_append_iff {plain : List Char} (h : IsPlain plain) :
    HasWildcard before (plain ++ text) ↔ HasWildcard (plain.getLast?.or before) text := by
  induction plain generalizing before with
  | nil => rfl
  | cons c plain ih =>
      obtain ⟨⟨hstar, hplus, hhash⟩, hplain⟩ := List.forall_mem_cons.1 h
      have hno : ¬IsWildcard before c (plain ++ text) := by
        simp [IsWildcard, hstar, hplus, hhash]
      rw [List.cons_append, hasWildcard_cons_iff, or_iff_right hno, ih hplain, getLast?_cons_or]

/-- Without wildcards a pattern stands for itself only. -/
theorem standsFor_iff_eq (h : ¬HasWildcard before pattern) :
    StandsFor before pattern text ↔ text = pattern := by
  induction pattern generalizing before text with
  | nil => exact standsFor_nil_iff
  | cons c pattern ih =>
      rw [hasWildcard_cons_iff, not_or] at h
      rw [standsFor_cons_iff h.1]
      constructor
      · rintro (⟨rfl, rfl, -⟩ | ⟨rest, rfl, hrest⟩)
        · have hhash : IsWildcard (some '/') '#' [] := by simp [IsWildcard, AtLevelStart]
          exact absurd ⟨[], '#', [], rfl, hhash⟩ h.2
        · rw [(ih h.2).1 hrest]
      · rintro rfl
        exact .inr ⟨pattern, rfl, standsFor_self _ _⟩

/-- A pattern also stands for what is left of it without a wildcard. -/
theorem standsFor_without {head after : List Char}
    (hwild : IsWildcard (head.getLast?.or before) c after) :
    StandsFor before (head ++ c :: after) (head ++ after) := by
  induction head generalizing before with
  | nil =>
      rcases hwild with rfl | ⟨rfl, hstart, hend⟩ | ⟨rfl, hstart, rfl⟩
      · exact .anyText [] (standsFor_self _ _)
      · exact .level hstart hend List.not_mem_nil hend (List.cons_ne_nil _ _).symm
          (standsFor_self _ _)
      · exact .rest [] hstart
  | cons d head ih =>
      have hrest := ih (getLast?_cons_or d head before ▸ hwild)
      by_cases hd : IsWildcard before d (head ++ c :: after)
      · rcases hd with rfl | ⟨rfl, hstart, hend⟩ | ⟨rfl, -, hnil⟩
        · exact .anyText ['*'] hrest
        · have hend' : AtLevelEnd (head ++ after) := by
            cases head with
            | nil =>
                -- the wildcard would be the `/` that ends the level
                obtain rfl := hend c rfl
                rcases hwild with h | ⟨h, -⟩ | ⟨h, -⟩ <;> cases h
            | cons e head => exact hend
          have hlevel : '/' ∉ ['+'] := by decide
          have hne : ['+'] ≠ ['#'] := by decide
          show StandsFor before _ (['+'] ++ (head ++ after))
          exact .level hstart hend hlevel hend' hne hrest
        · exact absurd hnil (List.append_ne_nil_of_right_ne_nil head (List.cons_ne_nil c after))
      · exact .itself hd hrest

/-- A pattern covers nothing but itself exactly if it has no wildcard. -/
theorem covers_itself_only_iff {pattern : String} :
    (∀ requested, covers pattern requested = true ↔ requested = pattern) ↔
      ¬HasWildcard none pattern.toList := by
  constructor
  · rintro h ⟨head, c, after, heq, hwild⟩
    have hcovers : covers pattern (String.ofList (head ++ after)) = true := by
      rw [covers_iff_fits, fits_tokens_iff, String.toList_ofList, heq]
      exact standsFor_without hwild
    have hlength := congrArg (·.toList.length) ((h _).1 hcovers)
    simp [heq] at hlength
  · intro h requested
    rw [covers_iff_fits, fits_tokens_iff, standsFor_iff_eq h, String.toList_inj]

/-! ### Names without wildcards of their own -/

/-- A level of the name ends with `:+`, or the last one with `:#`. -/
def OpensBehindColon (name : List Char) : Prop :=
  [':', '+', '/'] <:+: name ∨ [':', '+'] <:+ name ∨ [':', '#'] <:+ name

instance : DecidablePred OpensBehindColon := fun _ => inferInstanceAs (Decidable (_ ∨ _ ∨ _))

/-- In a name whose `+` and `#` share their levels, a wildcard stands behind a `:`. -/
theorem getLast?_of_isWildcard {head after : List Char} (hname : IsEmbedded (head ++ c :: after))
    (hc : c = '+' ∨ c = '#') (hstart : AtLevelStart (head.getLast?.or (some ':')))
    (hend : AtLevelEnd after) : ∃ text, head = text ++ [':'] := by
  by_contra hno
  have hslash : ∀ d, head.getLast? = some d → d = '/' := by
    intro d hd
    refine (hstart d (by rw [hd]; rfl)).resolve_right ?_
    rintro rfl
    exact hno (List.getLast?_eq_some_iff.1 hd)
  have hne : c ≠ '/' := by
    rcases hc with rfl | rfl <;> decide
  have hmem : '+' ∈ [c] ∨ '#' ∈ [c] := by
    rw [List.mem_singleton, List.mem_singleton]
    exact hc.imp Eq.symm Eq.symm
  have hlong := hname [c] (singleton_mem_levels hne hslash hend) hmem
  exact absurd hlong (Nat.lt_irrefl 1)

theorem hasWildcard_name_iff {name : List Char} (hstar : '*' ∉ name) (hname : IsEmbedded name) :
    HasWildcard (some ':') name ↔ OpensBehindColon name := by
  constructor
  · rintro ⟨head, c, after, rfl, rfl | ⟨rfl, hstart, hend⟩ | ⟨rfl, hstart, rfl⟩⟩
    · exact absurd (List.mem_append_right head List.mem_cons_self) hstar
    · obtain ⟨text, rfl⟩ := getLast?_of_isWildcard hname (.inl rfl) hstart hend
      cases after with
      | nil => exact .inr (.inl ⟨text, by simp⟩)
      | cons d after =>
          obtain rfl := hend d rfl
          exact .inl ⟨text, after, by simp⟩
    · obtain ⟨text, rfl⟩ := getLast?_of_isWildcard hname (.inr rfl) hstart nofun
      exact .inr (.inr ⟨text, by simp⟩)
  · have hstart (text : List Char) : AtLevelStart ((text ++ [':']).getLast?.or (some ':')) := by
      rw [List.getLast?_concat]
      exact fun c hc => .inr (Option.some.inj hc).symm
    rintro (⟨text, after, rfl⟩ | ⟨text, rfl⟩ | ⟨text, rfl⟩)
    · refine ⟨text ++ [':'], '+', '/' :: after, by simp, .inr (.inl ⟨rfl, hstart text, ?_⟩)⟩
      exact fun c hc => (Option.some.inj hc).symm
    · exact ⟨text ++ [':'], '+', [], by simp, .inr (.inl ⟨rfl, hstart text, nofun⟩)⟩
    · exact ⟨text ++ [':'], '#', [], by simp, .inr (.inr ⟨rfl, hstart text, rfl⟩)⟩

/-- **Wildcard characters inside of levels.**  Let every `+` and every `#` of a name without `*` share its
level with another character.  The name stands for itself only exactly if no level of it ends with
`:+` and the last one not with `:#`, in particular if it has no `:`. -/
theorem covers_embedded_iff {service kind name : String} (hs : IsPlainName service)
    (hk : IsPlainName kind) (hstar : '*' ∉ name.toList) (hname : IsEmbedded name.toList) :
    (∀ requested, covers (resourceOf service kind name) requested = true ↔
      requested = resourceOf service kind name) ↔ ¬OpensBehindColon name.toList := by
  rw [covers_itself_only_iff, toList_resourceOf,
    hasWildcard_plain_append_iff (isPlain_resourceHead hs hk), getLast?_resourceHead, Option.some_or,
    hasWildcard_name_iff hstar hname]

/-- In a name whose levels hold `+` and `#` among other characters, they stand for no other text. -/
theorem covers_embedded_sensor :
    '*' ∉ "#1/a:b+/c++".toList ∧ IsEmbedded "#1/a:b+/c++".toList ∧
      ¬(covers (resourceOf "mqtt" "topic" "#1/a:b+/c++") (resourceOf "mqtt" "topic" "#1/a:b7/c7") =
        true) := by
  have hstar : '*' ∉ "#1/a:b+/c++".toList := by decide
  have hname : IsEmbedded "#1/a:b+/c++".toList := by decide
  have hcolon : ¬OpensBehindColon "#1/a:b+/c++".toList := by decide +kernel
  have hne : resourceOf "mqtt" "topic" "#1/a:b7/c7" ≠ resourceOf "mqtt" "topic" "#1/a:b+/c++" := by
    decide +kernel
  exact ⟨hstar, hname, fun h => hne (((covers_embedded_iff (by decide) (by decide) hstar hname).2
    hcolon _).1 h)⟩

/-- A `+` behind a `:` is a wildcard, although it shares its level with two other characters. -/
theorem covers_behind_colon :
    ("mqtt".toList.all Text.isLetter && "topic".toList.all Text.isLetter) = true ∧
      '*' ∉ "a:+".toList ∧ IsEmbedded "a:+".toList ∧
      covers (resourceOf "mqtt" "topic" "a:+") (resourceOf "mqtt" "topic" "a:b") = true ∧
      resourceOf "mqtt" "topic" "a:b" ≠ resourceOf "mqtt" "topic" "a:+" := by
  refine ⟨by decide, by decide, by decide, by decide +kernel, by decide +kernel⟩

end ResourcePattern

end DeviceAccess
