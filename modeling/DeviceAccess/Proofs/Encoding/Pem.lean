import Mathlib.Data.List.Chain
import DeviceAccess.Encoding.Pem
import DeviceAccess.Proofs.Attempt

/-!
# Reading certificates from texts

A text that is put together from texts of whole lines holds the certificates of all of them
(`Pem.certificates?_append`): none is lost, and none comes to be where two texts meet.  A text that was
written for a certificate holds that certificate (`Pem.certificates?_ofCertificate`), which comes down
to base64 (`Base64.decodeLoose?_encode`), and a key is read back from the text that was written for it
(`Pem.key?_write`).
-/

namespace DeviceAccess

/-! ### Base64 -/

namespace Base64

/-- The character has a value, and is none of those that have a meaning around base64. -/
theorem char_spec {n : Nat} (h : n < 64) :
    value? (char n) = some n ∧ isBlank (char n) = false ∧ char n ≠ '=' ∧ char n ≠ '-' ∧
      Text.isBlank (char n) = false := by
  have hall : ∀ n ∈ List.range 64,
      value? (char n) = some n ∧ isBlank (char n) = false ∧ char n ≠ '=' ∧ char n ≠ '-' ∧
        Text.isBlank (char n) = false := by decide
  exact hall n (List.mem_range.2 h)

theorem symbols?_char_cons {n : Nat} (h : n < 64) (text : List Char) :
    symbols? (char n :: text) = (symbols? text).map (.value n :: ·) := by
  obtain ⟨hvalue, hblank, hpad, -⟩ := char_spec h
  unfold symbols?
  rw [List.filter_cons_of_pos (by simp [hblank]), List.mapM_cons, if_neg hpad, hvalue]
  cases (text.filter fun c => !isBlank c).mapM fun c =>
    if c = '=' then some Symbol.pad else (value? c).map .value with
  | none => rfl
  | some s => rfl

theorem first_written (a : UInt8) {x : Nat} (hx : x < 16) :
    first (a.toNat / 4) (a.toNat % 4 * 16 + x) = a := by
  unfold first
  rw [show a.toNat / 4 * 4 + (a.toNat % 4 * 16 + x) / 16 = a.toNat by omega, UInt8.ofNat_toNat]

theorem second_written (b : UInt8) (x : Nat) {y : Nat} (hy : y < 4) :
    second (x * 16 + b.toNat / 16) (b.toNat % 16 * 4 + y) = b := by
  have hb := b.toNat_lt
  unfold second
  rw [show (x * 16 + b.toNat / 16) % 16 * 16 + (b.toNat % 16 * 4 + y) / 4 = b.toNat by omega,
    UInt8.ofNat_toNat]

theorem third_written (c : UInt8) (x : Nat) : third (x * 4 + c.toNat / 64) (c.toNat % 64) = c := by
  have hc := c.toNat_lt
  unfold third
  rw [show (x * 4 + c.toNat / 64) % 4 * 64 + c.toNat % 64 = c.toNat by omega, UInt8.ofNat_toNat]

/-- What is written in base64 is read back, whatever number of groups went before. -/
theorem groups?_symbols?_encode (even : Bool) (b : Bytes) :
    (symbols? (encode b)).bind (groups? even) = some b := by
  have hpad : symbols? ['='] = some [.pad] := by decide
  have hpads : symbols? ['=', '='] = some [.pad, .pad] := by decide
  induction b using encode.induct generalizing even with
  | case1 => rfl
  | case2 a =>
      have ha := a.toNat_lt
      rw [encode, symbols?_char_cons (by omega), symbols?_char_cons (by omega), hpads]
      have hfirst := first_written a (show 0 < 16 by omega)
      rw [Nat.add_zero] at hfirst
      simp [groups?, hfirst]
  | case3 a b =>
      have ha := a.toNat_lt
      have hb := b.toNat_lt
      rw [encode, symbols?_char_cons (by omega), symbols?_char_cons (by omega),
        symbols?_char_cons (by omega), hpad]
      have hsecond := second_written b (a.toNat % 4) (show 0 < 4 by omega)
      rw [Nat.add_zero] at hsecond
      simp [groups?, first_written a (show b.toNat / 16 < 16 by omega), hsecond]
  | case4 a b c rest ih =>
      have ha := a.toNat_lt
      have hb := b.toNat_lt
      have hc := c.toNat_lt
      obtain ⟨symbols, hsymbols, hgroups⟩ := Option.bind_eq_some_iff.1 (ih (!even))
      rw [encode, symbols?_char_cons (by omega), symbols?_char_cons (by omega),
        symbols?_char_cons (by omega), symbols?_char_cons (by omega), hsymbols]
      simp [groups?, hgroups, first_written a (show b.toNat / 16 < 16 by omega),
        second_written b (a.toNat % 4) (show c.toNat / 64 < 4 by omega), third_written]

theorem decodeLoose?_encode (b : Bytes) : decodeLoose? (encode b) = some b :=
  groups?_symbols?_encode true b

/-- The strict reader reads it back as well. -/
theorem decode?_encode (b : Bytes) : decode? (encode b) = some b := by
  have hvalue : ∀ {n : Nat}, n < 64 → value? (char n) = some n := fun hn => (char_spec hn).1
  induction b using encode.induct with
  | case1 => rfl
  | case2 a =>
      have ha := a.toNat_lt
      have hfirst := first_written a (show 0 < 16 by omega)
      rw [Nat.add_zero] at hfirst
      simp [encode, decode?, hvalue (show a.toNat / 4 < 64 by omega),
        hvalue (show a.toNat % 4 * 16 < 64 by omega), hfirst]
  | case3 a b =>
      have ha := a.toNat_lt
      have hb := b.toNat_lt
      have hlast := char_spec (show b.toNat % 16 * 4 < 64 by omega)
      have hsecond := second_written b (a.toNat % 4) (show 0 < 4 by omega)
      rw [Nat.add_zero] at hsecond
      simp [encode, decode?, hvalue (show a.toNat / 4 < 64 by omega),
        hvalue (show a.toNat % 4 * 16 + b.toNat / 16 < 64 by omega), hlast,
        first_written a (show b.toNat / 16 < 16 by omega), hsecond]
  | case4 a b c rest ih =>
      have ha := a.toNat_lt
      have hb := b.toNat_lt
      have hc := c.toNat_lt
      have hlast := char_spec (show c.toNat % 64 < 64 by omega)
      simp [encode, decode?, hvalue (show a.toNat / 4 < 64 by omega),
        hvalue (show a.toNat % 4 * 16 + b.toNat / 16 < 64 by omega),
        hvalue (show b.toNat % 16 * 4 + c.toNat / 64 < 64 by omega), hlast, ih,
        first_written a (show b.toNat / 16 < 16 by omega),
        second_written b (a.toNat % 4) (show c.toNat / 64 < 4 by omega), third_written]

/-- A text in base64 consists of characters of the alphabet and padding. -/
theorem eq_char_of_mem_encode {b : Bytes} {c : Char} (hc : c ∈ encode b) :
    c = '=' ∨ ∃ n, n < 64 ∧ c = char n := by
  induction b using encode.induct with
  | case1 => cases hc
  | case2 a =>
      have ha := a.toNat_lt
      simp only [encode, List.mem_cons, List.not_mem_nil, or_false] at hc
      rcases hc with hc | hc | hc | hc
      · exact .inr ⟨_, by omega, hc⟩
      · exact .inr ⟨_, by omega, hc⟩
      · exact .inl hc
      · exact .inl hc
  | case3 a b =>
      have ha := a.toNat_lt
      have hb := b.toNat_lt
      simp only [encode, List.mem_cons, List.not_mem_nil, or_false] at hc
      rcases hc with hc | hc | hc | hc
      · exact .inr ⟨_, by omega, hc⟩
      · exact .inr ⟨_, by omega, hc⟩
      · exact .inr ⟨_, by omega, hc⟩
      · exact .inl hc
  | case4 a b c' rest ih =>
      have ha := a.toNat_lt
      have hb := b.toNat_lt
      have hc' := c'.toNat_lt
      simp only [encode, List.mem_cons] at hc
      rcases hc with hc | hc | hc | hc | hrest
      · exact .inr ⟨_, by omega, hc⟩
      · exact .inr ⟨_, by omega, hc⟩
      · exact .inr ⟨_, by omega, hc⟩
      · exact .inr ⟨_, by omega, hc⟩
      · exact ih hrest

/-- No character of base64 is a dash or blank. -/
theorem plain_of_mem_encode {b : Bytes} {c : Char} (hc : c ∈ encode b) :
    c ≠ '-' ∧ Text.isBlank c = false := by
  rcases eq_char_of_mem_encode hc with rfl | ⟨n, hn, rfl⟩
  · decide
  · exact ⟨(char_spec hn).2.2.2.1, (char_spec hn).2.2.2.2⟩

end Base64

/-! ### Texts one after the other -/

namespace Pem

/-- The text ends with the end of a line. -/
def EndsLine (text : String) : Prop :=
  ∃ before c, text.toList = before ++ [c] ∧ (c = '\n' ∨ c = '\r')

theorem lines_ne_nil (text : List Char) : lines text ≠ [] := by
  cases text with
  | nil => exact List.cons_ne_nil _ _
  | cons c rest =>
      unfold lines
      split
      · exact List.cons_ne_nil _ _
      · split
        · exact List.cons_ne_nil _ _
        · exact List.cons_ne_nil _ _

/-- A line break divides the lines before it from those after it. -/
theorem lines_append_cons {c : Char} (hc : c = '\n' ∨ c = '\r') (before after : List Char) :
    lines (before ++ c :: after) = lines before ++ lines after := by
  induction before with
  | nil => simp [lines, hc]
  | cons d before ih =>
      rw [List.cons_append, lines, lines, ih]
      split
      · rw [List.cons_append]
      · cases hlines : lines before with
        | nil => exact absurd hlines (lines_ne_nil before)
        | cons line more => simp only [List.cons_append]

/-- What one line does: it ends the reading with a fault, or adds objects and leaves the rest to a
state in which nothing was read of a block unless one is open. -/
theorem blocks_cons (current : Option (List Char)) (body line : List Char) :
    (∃ e, ∀ rest, blocks current body (line :: rest) = [.error e]) ∨
      ∃ items current' body', (current' = none → body' = []) ∧
        ∀ rest, blocks current body (line :: rest) = items ++ blocks current' body' rest := by
  cases hopens : opens line with
  | true =>
      cases hlabel : label? line with
      | none =>
          refine .inl ⟨.badOpening, fun rest => ?_⟩
          rw [blocks.eq_def]
          simp only [if_pos hopens, hlabel]
      | some label =>
          refine .inr ⟨[], some label, body, nofun, fun rest => ?_⟩
          rw [blocks.eq_def]
          simp only [if_pos hopens, hlabel, List.nil_append]
  | false =>
      have hno : ¬opens line = true := by simp [hopens]
      cases current with
      | none =>
          refine .inr ⟨[], none, [], fun _ => rfl, fun rest => ?_⟩
          simp only [blocks, if_neg hno, List.nil_append]
      | some label =>
          by_cases hcloses : closes label line = true
          · by_cases hknown : knownLabels.contains (String.ofList label) = true
            · cases hbody : Base64.decodeLoose? body with
              | none =>
                  refine .inl ⟨.badBase64 (String.ofList label), fun rest => ?_⟩
                  simp only [blocks, if_neg hno, if_pos hcloses, if_pos hknown, hbody]
              | some content =>
                  refine .inr ⟨[.ok ⟨String.ofList label, content⟩], none, [], fun _ => rfl,
                    fun rest => ?_⟩
                  simp only [blocks, if_neg hno, if_pos hcloses, if_pos hknown, hbody,
                    List.singleton_append]
            · refine .inr ⟨[], none, [], fun _ => rfl, fun rest => ?_⟩
              simp only [blocks, if_neg hno, if_pos hcloses, if_neg hknown, List.nil_append]
          · refine .inr ⟨[], some label, body ++ line, nofun, fun rest => ?_⟩
            simp only [blocks, if_neg hno, if_neg hcloses, List.nil_append]

/-- An empty line at the end changes nothing. -/
theorem blocks_append_nil (current : Option (List Char)) (body : List Char)
    (text : List (List Char)) : blocks current body (text ++ [[]]) = blocks current body text := by
  induction text generalizing current body with
  | nil =>
      have hopens : ¬opens [] = true := by decide
      cases current with
      | none => simp only [List.nil_append, blocks, if_neg hopens]
      | some label =>
          have hcloses : ¬closes label [] = true := by
            unfold closes closing
            simp
          simp only [List.nil_append, blocks, if_neg hopens, if_neg hcloses]
  | cons line text ih =>
      rw [List.cons_append]
      rcases blocks_cons current body line with ⟨e, hfault⟩ | ⟨items, current', body', -, hstep⟩
      · rw [hfault, hfault]
      · rw [hstep, hstep, ih]

/-- What is read without a fault is read alike, whatever comes after it. -/
theorem blocks_append {current : Option (List Char)} {body : List Char} {text : List (List Char)}
    (hbody : current = none → body = []) (hok : ∀ e, .error e ∉ blocks current body text)
    (more : List (List Char)) :
    blocks current body (text ++ more) = blocks current body text ++ blocks none [] more := by
  induction text generalizing current body with
  | nil =>
      cases current with
      | none =>
          rw [hbody rfl]
          rfl
      | some label => exact absurd List.mem_cons_self (hok (.unclosed (String.ofList label)))
  | cons line text ih =>
      rw [List.cons_append]
      rcases blocks_cons current body line with ⟨e, hfault⟩ | ⟨items, current', body', hclosed, hstep⟩
      · rw [hfault] at hok
        exact absurd List.mem_cons_self (hok e)
      · rw [hstep] at hok
        rw [hstep, hstep, ih hclosed fun e he => hok e (List.mem_append_right _ he),
          List.append_assoc]

theorem certificateItems_append {before : String} (hline : EndsLine before)
    (hok : ∀ e, .error e ∉ certificateItems before) (after : String) :
    certificateItems (before ++ after) = certificateItems before ++ certificateItems after := by
  obtain ⟨text, c, htext, hc⟩ := hline
  have hlines : lines (text ++ [c]) = lines text ++ [[]] := lines_append_cons hc text []
  have hblocks : ∀ e, .error e ∉ blocks none [] (lines text) := by
    intro e he
    refine hok e (List.mem_filterMap.2 ⟨.error e, ?_, rfl⟩)
    rwa [htext, hlines, blocks_append_nil]
  unfold certificateItems
  rw [String.toList_append, htext, List.append_assoc, List.singleton_append, lines_append_cons hc,
    blocks_append (fun _ => rfl) hblocks, List.filterMap_append, hlines, blocks_append_nil]

theorem error_not_mem_certificateItems {text : String} {found : List Bytes}
    (h : certificates? text = .ok found) (e : Fault) : .error e ∉ certificateItems text := by
  intro he
  obtain ⟨b, hb⟩ := exists_ok_of_mem_mapM h he
  cases hb

/-- The certificates of a text of whole lines come before those of the text after it. -/
theorem certificates?_append {before after : String} {found more : List Bytes}
    (hline : EndsLine before) (hfound : certificates? before = .ok found)
    (hmore : certificates? after = .ok more) :
    certificates? (before ++ after) = .ok (found ++ more) := by
  unfold certificates?
  rw [certificateItems_append hline (error_not_mem_certificateItems hfound), mapM_eq_ok_iff]
  exact List.rel_append (mapM_eq_ok_iff.1 hfound) (mapM_eq_ok_iff.1 hmore)

/-! ### Written texts -/

/-- Neither dashes nor blanks: what stands between the two marked lines of a block, unbroken. -/
def IsBody (text : List Char) : Prop := ∀ c ∈ text, c ≠ '-' ∧ Text.isBlank c = false

theorem isBody_encode (b : Bytes) : IsBody (Base64.encode b) :=
  fun _ hc => Base64.plain_of_mem_encode hc

theorem IsBody.ne_break {text : List Char} (h : IsBody text) {c : Char} (hc : c ∈ text) :
    c ≠ '\n' ∧ c ≠ '\r' := by
  obtain ⟨-, hblank⟩ := h c hc
  constructor
  · rintro rfl
    exact absurd hblank (by decide)
  · rintro rfl
    exact absurd hblank (by decide)

theorem IsBody.take {text : List Char} (h : IsBody text) (n : Nat) : IsBody (text.take n) :=
  fun c hc => h c (List.mem_of_mem_take hc)

theorem IsBody.drop {text : List Char} (h : IsBody text) (n : Nat) : IsBody (text.drop n) :=
  fun c hc => h c (List.mem_of_mem_drop hc)

/-- A text without line breaks is one line. -/
theorem lines_of_forall_ne {text : List Char} (h : ∀ c ∈ text, c ≠ '\n' ∧ c ≠ '\r') :
    lines text = [text] := by
  induction text with
  | nil => rfl
  | cons c text ih =>
      obtain ⟨⟨hn, hr⟩, htext⟩ := List.forall_mem_cons.1 h
      rw [lines, if_neg (by simp [hn, hr]), ih htext]

/-- A line of a block that does not start with a dash belongs to the block's body. -/
theorem blocks_body {label body line : List Char} (hline : line.head? ≠ some '-')
    (rest : List (List Char)) :
    blocks (some label) body (line :: rest) = blocks (some label) (body ++ line) rest := by
  have hopens : ¬opens line = true := by
    unfold opens openingStart
    cases line with
    | nil => simp
    | cons c line =>
        have hc : c ≠ '-' := fun h => hline (by rw [h]; rfl)
        simp [hc.symm]
  have hcloses : ¬closes label line = true := by
    unfold closes closing
    cases line with
    | nil => simp
    | cons c line =>
        have hc : c ≠ '-' := fun h => hline (by rw [h]; rfl)
        simp [hc.symm]
  rw [blocks, if_neg hopens]
  simp only [if_neg hcloses]

/-- The broken lines of a text are read as the text. -/
theorem blocks_wrap {label body text : List Char} (h : IsBody text) (after : List Char) :
    blocks (some label) body (lines (wrap text ++ after)) =
      blocks (some label) (body ++ text) (lines after) := by
  induction text using wrap.induct generalizing body with
  | case1 text hempty =>
      rw [wrap, if_pos hempty, List.isEmpty_iff.1 hempty, List.nil_append, List.append_nil]
  | case2 text hempty ih =>
      have hhead : (text.take lineWidth).head? ≠ some '-' := fun hdash =>
        (h.take lineWidth _ (List.mem_of_mem_head? hdash)).1 rfl
      rw [wrap, if_neg hempty, List.append_assoc, List.cons_append,
        lines_append_cons (.inl rfl), lines_of_forall_ne fun c hc => (h.take lineWidth).ne_break hc,
        List.singleton_append, blocks_body hhead, ih (h.drop lineWidth), List.append_assoc,
        List.take_append_drop]

theorem blocks_ofCertificate (b : Bytes) :
    blocks none [] (lines (ofCertificate b).toList) = [.ok ⟨certificateLabel, b⟩] := by
  have hopening : lines (opening certificateLabel).toList = [(opening certificateLabel).toList] := by
    decide
  have hclosing : lines ((closing certificateLabel).toList ++ ['\n']) =
      [(closing certificateLabel).toList, []] := by decide
  have hlabel : label? (opening certificateLabel).toList = some certificateLabel.toList := by decide
  have hopens : opens (opening certificateLabel).toList = true := by decide
  have hno : ¬opens (closing certificateLabel).toList = true := by decide
  have hcloses : closes certificateLabel.toList (closing certificateLabel).toList = true := by decide
  have hknown : knownLabels.contains (String.ofList certificateLabel.toList) = true := by decide
  have hnil : ¬opens [] = true := by decide
  have hbreak : "\n".toList = ['\n'] := rfl
  unfold ofCertificate write
  simp only [String.toList_append, String.toList_ofList, List.append_assoc, hbreak]
  rw [List.singleton_append, lines_append_cons (.inl rfl), hopening, List.singleton_append, blocks,
    if_pos hopens]
  simp only [hlabel]
  rw [blocks_wrap (isBody_encode b), List.nil_append, hclosing, blocks, if_neg hno]
  simp only [if_pos hcloses, if_pos hknown, Base64.decodeLoose?_encode, blocks, if_neg hnil]
  rfl

/-- The text of a certificate holds that certificate. -/
theorem certificates?_ofCertificate (b : Bytes) : certificates? (ofCertificate b) = .ok [b] := by
  unfold certificates? certificateItems
  rw [blocks_ofCertificate]
  rfl

theorem endsLine_ofCertificate (b : Bytes) : EndsLine (ofCertificate b) := by
  refine ⟨(opening certificateLabel ++ "\n" ++ String.ofList (wrap (Base64.encode b))
    ++ closing certificateLabel).toList, '\n', ?_, .inl rfl⟩
  unfold ofCertificate write
  rw [String.toList_append]
  rfl

/-! ### Written keys -/

/-- A text is split at a mark of dashes if no dash stands before it. -/
theorem splitAt?_append {mark before : List Char} (hmark : mark.head? = some '-')
    (hbefore : '-' ∉ before) (after : List Char) :
    splitAt? mark (before ++ (mark ++ after)) = some (before, after) := by
  obtain ⟨dashes, rfl⟩ : ∃ dashes, mark = '-' :: dashes := by
    cases mark with
    | nil => cases hmark
    | cons c dashes => exact ⟨dashes, by rw [Option.some.inj hmark]⟩
  induction before with
  | nil =>
      have hprefix : ('-' :: dashes).isPrefixOf ('-' :: (dashes ++ after)) = true := by
        rw [List.isPrefixOf_iff_prefix]
        exact List.prefix_append ('-' :: dashes) after
      rw [List.nil_append, List.cons_append, splitAt?, if_pos hprefix]
      simp
  | cons c before ih =>
      rw [List.mem_cons, not_or] at hbefore
      rw [List.cons_append, splitAt?, if_neg (by simp [hbefore.1]), ih hbefore.2]
      rfl

theorem splitAt?_eq_none {mark text : List Char} (h : ¬mark <:+: text) : splitAt? mark text = none := by
  induction text with
  | nil =>
      have hmark : mark.isEmpty = false := by
        cases mark with
        | nil => exact absurd List.infix_rfl h
        | cons c mark => rfl
      rw [splitAt?, hmark]
      rfl
  | cons c text ih =>
      have hprefix : ¬mark.isPrefixOf (c :: text) = true := fun hp =>
        h (List.isPrefixOf_iff_prefix.1 hp).isInfix
      rw [splitAt?, if_neg hprefix, ih fun hpart => h (hpart.trans (List.suffix_cons c text).isInfix)]
      rfl

theorem mem_wrap {text : List Char} {c : Char} (hc : c ∈ wrap text) : c ∈ text ∨ c = '\n' := by
  induction text using wrap.induct with
  | case1 text hempty =>
      rw [wrap, if_pos hempty] at hc
      cases hc
  | case2 text hempty ih =>
      rw [wrap, if_neg hempty, List.mem_append, List.mem_cons] at hc
      rcases hc with hc | hc | hc
      · exact .inl (List.mem_of_mem_take hc)
      · exact .inr hc
      · exact (ih hc).imp_left List.mem_of_mem_drop

theorem head?_wrap (text : List Char) : (wrap text).head? = text.head? := by
  cases text with
  | nil =>
      rw [wrap]
      rfl
  | cons c text =>
      rw [wrap, if_neg (by simp)]
      rfl

/-- No line of a broken text is empty. -/
theorem isChain_wrap {text : List Char} (h : ∀ c ∈ text, c ≠ '\n') :
    (wrap text).IsChain fun a b => a = '\n' → b ≠ '\n' := by
  induction text using wrap.induct with
  | case1 text hempty =>
      rw [wrap, if_pos hempty]
      exact List.IsChain.nil
  | case2 text hempty ih =>
      have hline : ∀ c ∈ text.take lineWidth, c ≠ '\n' := fun c hc => h c (List.mem_of_mem_take hc)
      have hrest : ∀ c ∈ text.drop lineWidth, c ≠ '\n' := fun c hc => h c (List.mem_of_mem_drop hc)
      rw [wrap, if_neg hempty, List.isChain_append, List.isChain_cons, head?_wrap]
      refine ⟨?_, ⟨fun c hc _ => hrest c (List.mem_of_mem_head? hc), ih hrest⟩, ?_⟩
      · exact (List.pairwise_of_forall_mem_list fun a ha b _ hn => absurd hn (hline a ha)).isChain
      · exact fun a ha b _ hn => absurd hn (hline a (List.mem_of_getLast? ha))

/-- The blanks of a broken text are its line breaks. -/
theorem filter_wrap {text : List Char} (h : IsBody text) :
    (wrap text).filter (fun c => !Text.isBlank c) = text := by
  induction text using wrap.induct with
  | case1 text hempty => rw [wrap, if_pos hempty, List.isEmpty_iff.1 hempty, List.filter_nil]
  | case2 text hempty ih =>
      have hkeep : ∀ c ∈ text.take lineWidth, (!Text.isBlank c) = true := fun c hc => by
        rw [(h.take lineWidth c hc).2]
        rfl
      rw [wrap, if_neg hempty, List.filter_append, List.filter_eq_self.2 hkeep,
        List.filter_cons_of_neg (by decide), ih (h.drop lineWidth), List.take_append_drop]

theorem headersAndData_wrap {text : List Char} (h : IsBody text) :
    headersAndData (wrap text) = ([], wrap text) := by
  have hn : splitAt? "\n\n".toList (wrap text) = none := by
    refine splitAt?_eq_none ?_
    rintro ⟨before, after, htext⟩
    rw [List.append_assoc] at htext
    have hchain := isChain_wrap fun c hc => (h.ne_break hc).1
    exact List.isChain_iff_forall_rel_of_append_cons_cons.1 hchain htext.symm rfl rfl
  have hr : splitAt? "\r\n\r\n".toList (wrap text) = none := by
    refine splitAt?_eq_none fun hpart => ?_
    rcases mem_wrap (hpart.subset (show '\r' ∈ "\r\n\r\n".toList by decide)) with hc | hc
    · exact (h.ne_break hc).2 rfl
    · cases hc
  unfold headersAndData
  rw [hn, hr]
  rfl

theorem isBlank_of_isGap {c : Char} (h : isGap c = true) : Text.isBlank c = true := by
  simp only [isGap, Bool.or_eq_true, decide_eq_true_eq] at h
  rcases h with ((rfl | rfl) | rfl) | rfl
  · decide
  · decide
  · decide
  · decide

/-- Between the first line of a block and its body only the line break is passed over. -/
theorem dropWhile_isGap_wrap {text : List Char} (h : IsBody text) (rest : List Char) :
    ('\n' :: (wrap text ++ '-' :: rest)).dropWhile isGap = wrap text ++ '-' :: rest := by
  rw [List.dropWhile_cons_of_pos (by decide)]
  cases hwrap : wrap text with
  | nil => exact List.dropWhile_cons_of_neg (by decide)
  | cons c more =>
      have hhead := head?_wrap text
      rw [hwrap, List.head?_cons] at hhead
      have hblank := (h c (List.mem_of_mem_head? hhead.symm)).2
      refine List.dropWhile_cons_of_neg fun hgap => ?_
      rw [isBlank_of_isGap hgap] at hblank
      cases hblank

/-- The text of a key holds that key. -/
theorem key?_write {label : String} (hlabel : label ≠ "") (hdash : '-' ∉ label.toList) (b : Bytes) :
    key? (write label b) = some b := by
  have hbody := isBody_encode b
  have hnodash : '-' ∉ wrap (Base64.encode b) := fun hc =>
    (mem_wrap hc).elim (fun hc => (hbody _ hc).1 rfl) (by decide)
  have hheaders : headersOk [] = true := rfl
  have hnonempty : label.toList.isEmpty = false := by simpa using hlabel
  obtain ⟨after, hafter⟩ : ∃ after, after = label.toList ++ ("-----".toList ++ ['\n']) := ⟨_, rfl⟩
  have htext : (write label b).toList = [] ++ (openingStart ++ (label.toList ++ ("-----".toList ++
      ('\n' :: (wrap (Base64.encode b) ++ ("-----END ".toList ++ after)))))) := by
    rw [hafter]
    unfold write opening closing openingStart
    simp
  have hgap : ('\n' :: (wrap (Base64.encode b) ++ ("-----END ".toList ++ after))).dropWhile isGap =
      wrap (Base64.encode b) ++ ("-----END ".toList ++ after) :=
    dropWhile_isGap_wrap hbody ("----END ".toList ++ after)
  unfold key?
  rw [htext, splitAt?_append rfl List.not_mem_nil]
  simp only [Option.bind_eq_bind, Option.bind_some]
  rw [splitAt?_append rfl hdash]
  simp only [Option.bind_some]
  rw [hgap, splitAt?_append rfl hnodash]
  simp only [Option.bind_some]
  rw [hafter, splitAt?_append rfl hdash]
  simp only [Option.bind_some]
  rw [headersAndData_wrap hbody, filter_wrap hbody, if_neg (by simp [hnonempty, hheaders]),
    Base64.decode?_encode]

end Pem

end DeviceAccess
