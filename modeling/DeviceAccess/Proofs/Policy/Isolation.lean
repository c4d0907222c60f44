import DeviceAccess.Proofs.Policy.Resolution
import DeviceAccess.Proofs.Policy.TopicFilter

/-!
# Devices of different names

A resource may hand every device a place of its own: a text without wildcards, then the name of the
thing as the end of a level.  Whatever follows, wildcards and further variables included, a request
that the resource covers for a thing has the name of this thing in this place, up to a `/` or the end
(`PolicyVariable.eq_own_of_covers`).  A name has no `/`, so the request tells the name, and no request
is covered for two things of different names (`PolicyVariable.not_covers_both`).  This holds although
one name may start with another and may contain a `:`.
-/

namespace DeviceAccess

namespace ResourcePattern

/-- A text that ends a level where it starts is read without a `#` at its front, and what fits it
ends a level as well. -/
theorem tokensAfter_of_endsLevel {text : List Char} (h : endsLevel text = true)
    (before : Option Char) : (tokensAfter before text).head? ≠ some .rest ∧
      ∀ requested, Fits (tokensAfter before text) requested → endsLevel requested = true := by
  cases text with
  | nil =>
      refine ⟨nofun, ?_⟩
      rintro requested rfl
      rfl
  | cons c text =>
      obtain rfl : c = '/' := of_decide_eq_true h
      rw [tokensAfter_slash]
      exact ⟨nofun, fun requested hfits => endsLevel_of_fits_slash hfits⟩

/-- A pattern of characters without a meaning and then the end of a level covers only what starts
with these characters and then ends a level. -/
theorem exists_rest_of_covers {pattern requested : String} {plain suffix : List Char}
    (hpattern : pattern.toList = plain ++ suffix) (hplain : IsPlain plain)
    (hsuffix : endsLevel suffix = true) (h : covers pattern requested = true) :
    ∃ rest, requested.toList = plain ++ rest ∧ endsLevel rest = true := by
  rcases covers_iff.1 h with rfl | hfits
  · exact ⟨suffix, hpattern, hsuffix⟩
  · obtain ⟨hhead, hends⟩ := tokensAfter_of_endsLevel hsuffix (plain.getLast?.or none)
    rw [hpattern, tokens, tokensAfter_plain_append hplain,
      fits_map_char_append_iff_of_head? hhead] at hfits
    obtain ⟨rest, hrequested, hrest⟩ := hfits
    exact ⟨rest, hrequested, hends rest hrest⟩

theorem isPlain_append {text text' : List Char} (h : IsPlain text) (h' : IsPlain text') :
    IsPlain (text ++ text') :=
  List.forall_mem_append.2 ⟨h, h'⟩

theorem not_mem_of_all {allowed : Char → Bool} {text : List Char} (h : text.all allowed = true)
    {c : Char} (hc : allowed c = false) : c ∉ text := by
  intro hmem
  rw [List.all_eq_true.1 h c hmem] at hc
  cases hc

/-- A text of characters among which no wildcard is has no wildcard. -/
theorem isPlain_of_all {allowed : Char → Bool} {text : List Char} (h : text.all allowed = true)
    (hstar : allowed '*' = false) (hplus : allowed '+' = false) (hhash : allowed '#' = false) :
    IsPlain text := by
  intro c hc
  refine ⟨?_, ?_, ?_⟩
  · rintro rfl
    exact not_mem_of_all h hstar hc
  · rintro rfl
    exact not_mem_of_all h hplus hc
  · rintro rfl
    exact not_mem_of_all h hhash hc

end ResourcePattern

namespace PolicyVariable

open ResourcePattern

variable {session session' : Session} {thing thing' : Thing}

/-! ### What is filled in -/

/-- Text before the first `$` stays as it is. -/
theorem fill_append_of_not_mem {plain : List Char} (h : '$' ∉ plain) (text : List Char) :
    fill session (plain ++ text) = plain ++ fill session text := by
  induction plain with
  | nil => rfl
  | cons c plain ih =>
      rw [List.mem_cons, not_or] at h
      have hopen : ['$', '{'].isPrefixOf (c :: (plain ++ text)) = false := by
        simp [List.isPrefixOf, h.1]
      rw [List.cons_append, fill_cons hopen, ih h.2, List.cons_append]

/-- Every spelling of the variable is known. -/
theorem afterKnown?_append {spelling : List Char}
    (h : sameLetters thingName.token.toList spelling = true) (after : List Char) :
    afterKnown? (spelling ++ after) = some after := by
  have hlength : spelling.length = thingName.token.length := by
    have hmap := congrArg List.length (of_decide_eq_true h)
    rw [List.length_map, List.length_map] at hmap
    exact hmap.symm
  have hsame : sameLetters thingName.token.toList
      ((spelling ++ after).take thingName.token.length) = true := by
    rwa [← hlength, List.take_left]
  have hfind : (catalog.find? fun v =>
      sameLetters v.token.toList ((spelling ++ after).take v.token.length)) = some thingName :=
    List.find?_cons_of_pos hsame
  unfold afterKnown?
  rw [hfind, Option.map_some, ← hlength, List.drop_left]

/-- What ends a level still does when it is filled in. -/
theorem endsLevel_fill {text : List Char} (h : endsLevel text = true) :
    endsLevel (fill session text) = true := by
  cases text with
  | nil =>
      rw [fill, pieces]
      rfl
  | cons c text =>
      obtain rfl : c = '/' := of_decide_eq_true h
      rw [fill_cons rfl]
      rfl

/-- The name of the thing stands where the variable stood. -/
theorem fill_own (hthing : session.thing? = some thing) {head spelling : List Char}
    (hhead : '$' ∉ head) (hspelling : sameLetters thingName.token.toList spelling = true)
    (suffix : List Char) : fill session (head ++ (spelling ++ suffix)) =
      head ++ thing.name.toList ++ fill session suffix := by
  rw [fill_append_of_not_mem hhead, fill_of_afterKnown? hthing (afterKnown?_append hspelling suffix),
    List.append_assoc]

/-- A thing's name has no wildcard and is part of one level. -/
theorem isPlain_thingName (thing : Thing) :
    IsPlain thing.name.toList ∧ '/' ∉ thing.name.toList := by
  have hname := thing.isName_name
  unfold Thing.isName at hname
  rw [Bool.and_eq_true] at hname
  exact ⟨isPlain_of_all hname.2 (by decide) (by decide) (by decide),
    not_mem_of_all hname.2 (by decide)⟩

/-! ### Own resources -/

/-- A resource that names its thing once: `head` without wildcards and variables, then the variable
in some spelling, then the end of the level and anything else. -/
structure NamesOwn (resource : String) (head : List Char) : Prop where
  isPlain : IsPlain head
  noVariable : '$' ∉ head
  toList_eq : ∃ spelling suffix, resource.toList = head ++ (spelling ++ suffix) ∧
    sameLetters thingName.token.toList spelling = true ∧ endsLevel suffix = true

/-- A covered request has the thing's name in its place, up to the end of the level. -/
theorem eq_own_of_covers {resource requested : String} {head : List Char}
    (hown : NamesOwn resource head) (hthing : session.thing? = some thing)
    (h : covers (substitute resource session) requested = true) :
    ∃ rest, requested.toList = head ++ thing.name.toList ++ rest ∧ endsLevel rest = true := by
  obtain ⟨spelling, suffix, hresource, hspelling, hsuffix⟩ := hown.toList_eq
  have hfilled : (substitute resource session).toList =
      head ++ thing.name.toList ++ fill session suffix := by
    rw [toList_substitute, hresource, fill_own hthing hown.noVariable hspelling]
  exact exists_rest_of_covers hfilled (isPlain_append hown.isPlain (isPlain_thingName thing).1)
    (endsLevel_fill hsuffix) h

/-- A request that is covered for a thing tells the name of the thing. -/
theorem thingName_eq_of_covers {resource requested : String} {head : List Char}
    (hown : NamesOwn resource head) (hthing : session.thing? = some thing)
    (hthing' : session'.thing? = some thing')
    (h : covers (substitute resource session) requested = true)
    (h' : covers (substitute resource session') requested = true) : thing.name = thing'.name := by
  obtain ⟨rest, hrequested, hrest⟩ := eq_own_of_covers hown hthing h
  obtain ⟨rest', hrequested', hrest'⟩ := eq_own_of_covers hown hthing' h'
  rw [hrequested, List.append_assoc, List.append_assoc] at hrequested'
  have hsame := List.append_cancel_left hrequested'
  have hlevel := (levelOf_append (isPlain_thingName thing).2 hrest).1
  rw [hsame, (levelOf_append (isPlain_thingName thing').2 hrest').1] at hlevel
  exact (String.toList_inj.1 hlevel).symm

/-! ### Resources of a service and a kind -/

/-- No letter is a wildcard, a `$` or a `:`. -/
theorem isPlainName_of_isLetter {name : String} (h : name.toList.all Text.isLetter = true) :
    IsPlainName name ∧ '$' ∉ name.toList :=
  ⟨⟨isPlain_of_all h (by decide) (by decide) (by decide), not_mem_of_all h (by decide)⟩,
    not_mem_of_all h (by decide)⟩

theorem namesOwn_resourceOf {service kind scope spelling suffix : String}
    (hs : service.toList.all Text.isLetter = true) (hk : kind.toList.all Text.isLetter = true)
    (hscope : ∀ c ∈ scope.toList, c ≠ '*' ∧ c ≠ '+' ∧ c ≠ '#' ∧ c ≠ '$')
    (hspelling : sameLetters thingName.token.toList spelling.toList = true)
    (hsuffix : endsLevel suffix.toList = true) :
    NamesOwn (resourceOf service kind (scope ++ spelling ++ suffix))
      (resourceHead service kind ++ scope.toList) where
  isPlain := by
    refine isPlain_append (isPlain_resourceHead (isPlainName_of_isLetter hs).1
      (isPlainName_of_isLetter hk).1) fun c hc => ?_
    obtain ⟨hstar, hplus, hhash, -⟩ := hscope c hc
    exact ⟨hstar, hplus, hhash⟩
  noVariable := by
    have hservice := (isPlainName_of_isLetter hs).2
    have hkind := (isPlainName_of_isLetter hk).2
    have hdollar : '$' ∉ scope.toList := fun hc => (hscope '$' hc).2.2.2 rfl
    simp [resourceHead, hservice, hkind, hdollar]
  toList_eq := by
    refine ⟨spelling.toList, suffix.toList, ?_, hspelling, hsuffix⟩
    simp [toList_resourceOf, List.append_assoc]

/-- **Devices are kept apart.**  Let a resource be `service:kind:` and then a text without wildcards and
`$`, the variable for the thing's name in any letter case, and nothing more or a `/` and anything.  No
request is covered by what the resource grants to two things of different names. -/
theorem not_covers_both {service kind scope spelling suffix : String}
    (hs : service.toList.all Text.isLetter = true) (hk : kind.toList.all Text.isLetter = true)
    (hscope : ∀ c ∈ scope.toList, c ≠ '*' ∧ c ≠ '+' ∧ c ≠ '#' ∧ c ≠ '$')
    (hspelling : sameLetters thingName.token.toList spelling.toList = true)
    (hsuffix : endsLevel suffix.toList = true) (hthing : session.thing? = some thing)
    (hthing' : session'.thing? = some thing') (hne : thing.name ≠ thing'.name)
    (requested : String) :
    let resource := resourceOf service kind (scope ++ spelling ++ suffix)
    ¬(covers (substitute resource session) requested = true ∧
      covers (substitute resource session') requested = true) := by
  rintro resource ⟨h, h'⟩
  exact hne (thingName_eq_of_covers (namesOwn_resourceOf hs hk hscope hspelling hsuffix) hthing
    hthing' h h')

/-- A session of a thing. -/
def sessionOf (thing : Thing) : Session :=
  (Session.ofCertificate ⟨"hash", "certificate", true⟩).withThing thing

/-- A sensor whose name starts with the one of another sensor has its own topics and not those of the
other. -/
theorem not_covers_both_sensors :
    let sensor := sessionOf ⟨"sensor", rfl⟩
    let probe := sessionOf ⟨"sensor:1", rfl⟩
    let resource := "mqtt:topic:data/$\x7bIOT:connection.Thing.thingName\x7d/#"
    isValid resource = true ∧ covers (substitute resource probe) "mqtt:topic:data/sensor:1" = true ∧
      ¬(covers (substitute resource sensor) "mqtt:topic:data/sensor:1" = true ∧
        covers (substitute resource probe) "mqtt:topic:data/sensor:1" = true) := by
  refine ⟨by decide +kernel, by decide +kernel, ?_⟩
  have hresource : "mqtt:topic:data/$\x7bIOT:connection.Thing.thingName\x7d/#" =
      resourceOf "mqtt" "topic" ("data/" ++ "$\x7bIOT:connection.Thing.thingName\x7d" ++ "/#") := by
    decide +kernel
  rw [hresource]
  have hscope : ("data/".toList.all fun c => c ≠ '*' ∧ c ≠ '+' ∧ c ≠ '#' ∧ c ≠ '$') = true := by
    decide
  exact not_covers_both (by decide) (by decide)
    (fun c hc => of_decide_eq_true (List.all_eq_true.1 hscope c hc)) (by decide) (by decide) rfl rfl
    (by decide) _

end PolicyVariable

end DeviceAccess
