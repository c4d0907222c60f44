import DeviceAccess.Proofs.Deployment.Configuring
import DeviceAccess.Proofs.Service.InForce
import DeviceAccess.Proofs.Service.Outputs

/-!
# Putting in force what differs, and putting in force everything

A reload puts the sections in force that differ from the settings of the service.  It could as well put
all of them in force (`Patch.everySection`), which is slower and reads the files of the authority each
time.

Sections do not depend on each other: put in force one after the other, each comes to what it comes to
by itself (`Service.exists_putAll_sections`).  The one thing to see to is the order, since whatever
issues certificates draws random bytes, and so does the generation of an authority.  And in a service
that matches its settings (`Service.Matches`) a section that is put in force once more stays as it is
(`Service.agreeOn_put_of_matches`).  Hence a reload leaves the sections as if all of them had been put in
force (`Service.reload_selective`).

What a reload leaves as the settings of the service is the new settings, with the old values where only a
start could change them; but if nothing differs, it leaves the old settings.  Outputs are compared as
sets, so these are not always the new ones: the order of the outputs may be another
(`Patch.isEmpty_between_iff`).
-/

namespace DeviceAccess

/-! ### Settings that differ in nothing -/

/-- Settings that mean the same: only the order of the outputs, how often each is listed and how paths
are spelled may differ. -/
structure Settings.Alike (old new : Settings) : Prop where
  groups : old.groups = new.groups
  session : old.session = new.session
  certificates : old.certificates = new.certificates
  authority : old.authority = new.authority
  connectivity : old.connectivity = new.connectivity
  outputs : ∀ e, e ∈ new.entries ↔ e ∈ old.entries
  workDir : old.workDir.same new.workDir = true
  thingName : old.thingName = new.thingName
  registry : old.registry.same new.registry = true
  envFiles : old.envFiles = new.envFiles

namespace Patch

/-- All outputs of a list are among others. -/
theorem filter_listed_eq_nil_iff {outputs others : List CertificateOutput} :
    (outputs.filter fun o => !listed others o) = [] ↔
      ∀ e ∈ outputs.map CertificateOutput.entry, e ∈ others.map CertificateOutput.entry := by
  rw [← List.map_eq_nil_iff (f := CertificateOutput.entry), map_entry_filter, List.filter_eq_nil_iff]
  simp

/-- **Nothing differs** exactly between settings that mean the same. -/
theorem isEmpty_between_iff {old new : Settings} :
    (between old new).isEmpty = true ↔ old.Alike new := by
  have hstart : (between old new).restart = [] ↔ old.workDir.same new.workDir = true ∧
      old.thingName = new.thingName ∧ old.registry.same new.registry = true ∧
      old.envFiles = new.envFiles := by
    unfold between
    rw [List.filterMap_eq_nil_iff]
    simp
  have hadded : (between old new).added = [] ↔ ∀ e ∈ new.entries, e ∈ old.entries :=
    filter_listed_eq_nil_iff
  have hremoved : (between old new).removed = [] ↔ ∀ e ∈ old.entries, e ∈ new.entries :=
    filter_listed_eq_nil_iff
  rw [isEmpty_iff, hadded, hremoved, hstart]
  constructor
  · rintro ⟨hsections, hnew, hold, hdir, hthing, hregistry, hfiles⟩
    exact
      { groups := of_not_not (of_decide_eq_false (hsections .groups))
        session := of_not_not (of_decide_eq_false (hsections .session))
        certificates := of_not_not (of_decide_eq_false (hsections .certificates))
        authority := of_not_not (of_decide_eq_false (hsections .authority))
        connectivity := of_not_not (of_decide_eq_false (hsections .connectivity))
        outputs := fun e => ⟨hnew e, hold e⟩
        workDir := hdir
        thingName := hthing
        registry := hregistry
        envFiles := hfiles }
  · intro h
    refine ⟨fun x => ?_, fun e => (h.outputs e).1, fun e => (h.outputs e).2, h.workDir, h.thingName,
      h.registry, h.envFiles⟩
    cases x with
    | groups => exact decide_eq_false (not_not_intro h.groups)
    | session => exact decide_eq_false (not_not_intro h.session)
    | certificates => exact decide_eq_false (not_not_intro h.certificates)
    | authority => exact decide_eq_false (not_not_intro h.authority)
    | connectivity => exact decide_eq_false (not_not_intro h.connectivity)

/-- All sections, whether they differ or not, and no outputs. -/
def everySection : Patch := ⟨true, true, true, true, true, [], [], []⟩

end Patch

/-! ### The order of the sections -/

/-- The sections in the order in which they are put in force. -/
def Section.inOrder : List Section := [.groups, .session, .certificates, .authority, .connectivity]

/-- Of two sections the first leaves alone what the second depends on. -/
def Section.Before (x y : Section) : Prop := x ≠ y ∧ (y = .authority → x ≠ .connectivity)

theorem Section.pairwise_inOrder : inOrder.Pairwise Before := by
  unfold inOrder Before
  decide

theorem Section.mem_inOrder (x : Section) : x ∈ inOrder := by
  cases x with
  | _ => decide

theorem map_filter_cons {α β : Type} (p : α → Bool) (f : α → β) (a : α) (as : List α) :
    ((a :: as).filter p).map f = (if p a then [f a] else []) ++ (as.filter p).map f := by
  cases h : p a with
  | false => simp [h]
  | true => simp [h]

/-- The changes of a patch are those of its sections, in their order, and then those of outputs. -/
theorem Patch.changes_eq (p : Patch) (new : Settings) :
    p.changes new = (Section.inOrder.filter p.changes?).map new.change ++
      (p.removed.map Service.Change.unsubscribe ++ p.added.map Service.Change.subscribe) := by
  unfold Section.inOrder
  simp only [map_filter_cons, List.filter_nil, List.map_nil, List.append_nil, List.append_assoc]
  rfl

namespace Service

variable {tk : Toolkit} {s s' : Service} {x : Section} {new settings : Settings}

/-! ### One section -/

/-- What the operations on the authority work on is the same. -/
structure SameGround (a b : Service) : Prop where
  authority : a.deployment.gateway.authority = b.deployment.gateway.authority
  world : a.deployment.gateway.world = b.deployment.gateway.world
  calendar : a.deployment.calendar = b.deployment.calendar

theorem calendar_addTask (d : Deployment) (owner : TaskOwner) (work : Work) :
    (d.addTask owner work).calendar = d.calendar := by
  unfold Deployment.addTask
  split
  · rfl
  · rfl

/-- Sections that neither are the authority nor issue certificates leave its ground alone. -/
theorem sameGround_put (tk : Toolkit) (s : Service) (new : Settings) (hauthority : x ≠ .authority)
    (hconnectivity : x ≠ .connectivity) : (s.put tk (new.change x)).1.SameGround s := by
  cases x with
  | groups => exact ⟨rfl, rfl, rfl⟩
  | session =>
      have hgateway : (s.put tk (new.change .session)).1.deployment.gateway =
          (s.setCapacity new.session).deployment.gateway :=
        gateway_restartSweeps (s.setCapacity new.session) new.session
      refine ⟨?_, ?_, ?_⟩
      · rw [hgateway]
        rfl
      · rw [hgateway]
        rfl
      · show ((s.setCapacity new.session).restartSweeps new.session).deployment.calendar = _
        unfold restartSweeps
        simp only
        rw [calendar_addTask, calendar_addTask]
        rfl
  | certificates => exact ⟨rfl, rfl, rfl⟩
  | authority => exact absurd rfl hauthority
  | connectivity => exact absurd rfl hconnectivity

/-- What putting an authority in force leaves and answers. -/
theorem frame_put_authority (tk : Toolkit) (s : Service) (new : Settings) :
    let r := s.deployment.configureAuthority tk [] new.authority
    (s.put tk (new.change .authority)).1.sections.authority = r.1.gateway.authority.material ∧
      (s.put tk (new.change .authority)).2 = r.2 := by
  obtain ⟨hgateway, -, hresult⟩ := frame_putAuthority tk s new.authority new.thingName
  exact ⟨congrArg (fun g : Gateway => g.authority.material) hgateway, hresult⟩

/-- Whether a section can be put in force is the same in every service; for the authority it is the same
on the same ground. -/
theorem put_congr (tk : Toolkit) (new : Settings) (h : x = .authority → s'.SameGround s) :
    (s'.put tk (new.change x)).2 = .ok () ↔ (s.put tk (new.change x)).2 = .ok () := by
  cases x with
  | groups => exact applyGroups_eq_ok_iff.trans applyGroups_eq_ok_iff.symm
  | session => exact Iff.rfl
  | certificates => exact Iff.rfl
  | authority =>
      obtain ⟨hauthority, hworld, hcalendar⟩ := h rfl
      rw [(frame_put_authority tk s' new).2, (frame_put_authority tk s new).2,
        Deployment.configureAuthority_eq_ok_iff, Deployment.configureAuthority_eq_ok_iff,
        Deployment.authorityOutcome_congr hauthority hworld hcalendar]
  | connectivity => exact Iff.rfl

/-- Settings that ask for something other than an authority ask for one thing only. -/
theorem agreeOn_of_fit {a b : Gateway.Sections} {origin origin' : Origin} (hx : x ≠ .authority)
    (ha : a.Fit origin settings x) (hb : b.Fit origin' settings x) : a.AgreeOn b x := by
  cases x with
  | groups => exact Except.ok.inj (ha.symm.trans hb)
  | session => exact ha.trans hb.symm
  | certificates => exact ha.trans hb.symm
  | authority => exact absurd rfl hx
  | connectivity => exact ha.trans hb.symm

/-- Other than the authority a section fits after it was put in force, whatever was in force before. -/
theorem fit_put_of_ok (hx : x ≠ .authority) (hok : (s.put tk (new.change x)).2 = .ok ()) :
    (s.put tk (new.change x)).1.sections.Fit none new x := by
  cases x with
  | authority => exact absurd rfl hx
  | _ => exact fit_put (Prod.ext rfl hok)

/-- **What a section comes to** is the same in every service; the authority does so on the same ground. -/
theorem agreeOn_put_congr (h : x = .authority → s'.SameGround s)
    (hok : (s.put tk (new.change x)).2 = .ok ()) :
    (s'.put tk (new.change x)).1.sections.AgreeOn (s.put tk (new.change x)).1.sections x := by
  have hok' := (put_congr tk new h).2 hok
  by_cases hx : x = .authority
  · subst hx
    obtain ⟨hauthority, hworld, hcalendar⟩ := h rfl
    obtain ⟨hmaterial, hresult⟩ := frame_put_authority tk s new
    rw [hresult] at hok
    obtain ⟨o, ho, -⟩ := Deployment.configureAuthority_eq_ok_iff.1 hok
    have ho' := (Deployment.authorityOutcome_congr hauthority hworld hcalendar new.authority).trans ho
    show Gateway.Sections.authority _ = Gateway.Sections.authority _
    rw [hmaterial, (frame_put_authority tk s' new).1, Deployment.material_configureAuthority ho,
      Deployment.material_configureAuthority ho']
  · exact agreeOn_of_fit hx (fit_put_of_ok hx hok') (fit_put_of_ok hx hok)

/-! ### Sections in a row -/

/-- **Sections do not depend on each other.**  Put in force in a row, each comes to what it comes to by
itself, and the others stay. -/
theorem exists_putAll_sections {xs : List Section} (hxs : xs.Pairwise Section.Before)
    (hok : ∀ x ∈ xs, (s.put tk (new.change x)).2 = .ok ()) :
    ∃ s', s.putAll tk (xs.map new.change) = (s', .ok ()) ∧ ∀ y, s'.sections.AgreeOn
      (if y ∈ xs then (s.put tk (new.change y)).1.sections else s.sections) y := by
  induction xs generalizing s with
  | nil => exact ⟨s, rfl, fun y => .refl _ y⟩
  | cons x xs ih =>
      obtain ⟨hbefore, hxs⟩ := List.pairwise_cons.1 hxs
      obtain ⟨s₁, hput⟩ : ∃ s₁, s.put tk (new.change x) = (s₁, .ok ()) :=
        ⟨_, Prod.ext rfl (hok x List.mem_cons_self)⟩
      -- What stands before the authority leaves its ground as it was.
      have hground : ∀ y ∈ xs, y = .authority → s₁.SameGround s := by
        intro y hy hauthority
        obtain ⟨hne, hconnectivity⟩ := hbefore y hy
        have hsame := sameGround_put tk s new (hauthority ▸ hne) (hconnectivity hauthority)
        rwa [hput] at hsame
      obtain ⟨s', hrest, hagree⟩ := ih hxs fun y hy =>
        (put_congr tk new (hground y hy)).2 (hok y (List.mem_cons_of_mem x hy))
      refine ⟨s', (putAll_cons_of_ok hput _).trans hrest, fun y => (hagree y).trans ?_⟩
      have hothers : y ≠ x → s₁.sections.AgreeOn s.sections y := by
        intro hne
        have hsection : (new.change x).section? ≠ some y := by
          rw [Settings.section?_change]
          exact fun heq => hne (Option.some.inj heq).symm
        have hagree := agreeOn_put tk s hsection
        rwa [hput] at hagree
      by_cases hy : y ∈ xs
      · rw [if_pos hy, if_pos (List.mem_cons_of_mem x hy)]
        exact agreeOn_put_congr (hground y hy) (hok y (List.mem_cons_of_mem x hy))
      · rw [if_neg hy]
        by_cases hyx : y = x
        · subst hyx
          rw [if_pos List.mem_cons_self, hput]
          exact .refl _ y
        · rw [if_neg (List.mem_cons.not.2 (not_or_intro hyx hy))]
          exact hothers hyx

/-! ### A service that matches its settings -/

/-- What is in force is what the settings of the service ask for, and the authority in force is the one
that is on file. -/
structure Matches (tk : Toolkit) (s : Service) : Prop where
  sections : ∀ x, x ≠ .authority → s.sections.Fit none s.settings x
  authority : ∃ m, s.sections.authority = some m ∧
    s.deployment.onFile? tk s.settings.authority = some m

/-- A section that is put in force once more stays as it is. -/
theorem agreeOn_put_of_matches (h : s.Matches tk)
    (hsame : (Patch.between s.settings new).changes? x = false)
    (hok : (s.put tk (new.change x)).2 = .ok ()) :
    s.sections.AgreeOn (s.put tk (new.change x)).1.sections x := by
  by_cases hx : x = .authority
  · subst hx
    have heq : s.settings.authority = new.authority := of_not_not (of_decide_eq_false hsame)
    obtain ⟨m, hm, hfile⟩ := h.authority
    obtain ⟨hmaterial, hresult⟩ := frame_put_authority tk s new
    rw [hresult] at hok
    show s.sections.authority = Gateway.Sections.authority _
    rw [hmaterial, hm, Deployment.material_of_onFile? (heq ▸ hfile) hok]
  · exact agreeOn_of_fit hx ((fit_iff_of_between hsame).1 (h.sections x hx)) (fit_put_of_ok hx hok)

/-! ### All sections, and those that differ -/

/-- Of the settings that only a start could change a section has the core device at most, for which its
authority is registered. -/
theorem put_keepStartSettings (tk : Toolkit) (s : Service) (old new : Settings) (x : Section) :
    (s.put tk ((keepStartSettings old new).change x)).2 = (s.put tk (new.change x)).2 ∧
      (s.put tk ((keepStartSettings old new).change x)).1.sections.AgreeOn
        (s.put tk (new.change x)).1.sections x := by
  cases x with
  | authority =>
      obtain ⟨hmaterial, hresult⟩ := frame_put_authority tk s new
      obtain ⟨hkept, hkeptResult⟩ := frame_put_authority tk s (keepStartSettings old new)
      exact ⟨hkeptResult.trans hresult.symm, hkept.trans hmaterial.symm⟩
  | _ => exact ⟨rfl, .refl _ _⟩

/-- All sections can be put in force if each can. -/
theorem exists_applyPatch_everySection (hok : ∀ x, (s.put tk (new.change x)).2 = .ok ()) :
    ∃ full, s.applyPatch tk .everySection new = (full, .ok ()) ∧
      ∀ x, full.sections.AgreeOn (s.put tk (new.change x)).1.sections x := by
  obtain ⟨full, hput, hagree⟩ :=
    exists_putAll_sections Section.pairwise_inOrder fun x _ => hok x
  have hchanges : Patch.everySection.changes new = Section.inOrder.map new.change := by
    rw [Patch.changes_eq]
    exact List.append_nil _
  refine ⟨full, ?_, fun x => ?_⟩
  · rw [applyPatch_eq_putAll, hchanges]
    exact hput
  · have hx := hagree x
    rwa [if_pos (Section.mem_inOrder x)] at hx

/-- The sections that differ, put in force in a service that matches its settings, come to what all
sections come to. -/
theorem exists_putAll_changed (h : s.Matches tk) (hok : ∀ x, (s.put tk (new.change x)).2 = .ok ()) :
    ∃ s', s.putAll tk ((Section.inOrder.filter (Patch.between s.settings new).changes?).map
        (keepStartSettings s.settings new).change) = (s', .ok ()) ∧
      ∀ x, s'.sections.AgreeOn (s.put tk (new.change x)).1.sections x := by
  have hkeep := put_keepStartSettings tk s s.settings new
  have hordered : (Section.inOrder.filter (Patch.between s.settings new).changes?).Pairwise
      Section.Before :=
    Section.pairwise_inOrder.sublist List.filter_sublist
  obtain ⟨s', hput, hagree⟩ :=
    exists_putAll_sections hordered fun x _ => (hkeep x).1.trans (hok x)
  refine ⟨s', hput, fun x => (hagree x).trans ?_⟩
  have hmem : x ∈ Section.inOrder.filter (Patch.between s.settings new).changes? ↔
      (Patch.between s.settings new).changes? x = true := by
    rw [List.mem_filter, and_iff_right (Section.mem_inOrder x)]
  cases hx : (Patch.between s.settings new).changes? x with
  | true =>
      rw [if_pos (hmem.2 hx)]
      exact (hkeep x).2
  | false =>
      rw [if_neg fun hin => Bool.false_ne_true (hx.symm.trans (hmem.1 hin))]
      exact agreeOn_put_of_matches h hx (hok x)

/-- **The changes of a reload** come to what all sections come to, and can fail only at an output that is
new. -/
theorem putAll_reloadChanges (h : s.Matches tk) (hok : ∀ x, (s.put tk (new.change x)).2 = .ok ()) :
    let r := s.putAll tk (s.reloadChanges new)
    (∀ x, r.1.sections.AgreeOn (s.put tk (new.change x)).1.sections x) ∧
      (r.2 = .ok () ∨ ∃ (before : Service) (o : CertificateOutput) (e : Fault),
        o ∈ (Patch.between s.settings new).added ∧ r.2 = .error e ∧
          before.subscribeOutput tk o = (r.1, .error e)) := by
  obtain ⟨s', hput, hagree⟩ := exists_putAll_changed h hok
  intro r
  have hr : r = s'.putAll tk ((Patch.between s.settings new).removed.map Change.unsubscribe ++
      (Patch.between s.settings new).added.map Change.subscribe) := by
    show s.putAll tk (s.reloadChanges new) = _
    unfold reloadChanges
    rw [Patch.changes_eq, putAll_append_of_ok hput]
  refine ⟨fun x => ?_, ?_⟩
  · rw [hr]
    refine (agreeOn_putAll tk s' fun c hc => ?_).trans (hagree x)
    rcases List.mem_append.1 hc with hc | hc
    · obtain ⟨o, -, rfl⟩ := List.mem_map.1 hc
      exact nofun
    · obtain ⟨o, -, rfl⟩ := List.mem_map.1 hc
      exact nofun
  · cases hresult : r.2 with
    | ok u => exact .inl rfl
    | error e =>
        have hfail : r = (r.1, .error e) := Prod.ext rfl hresult
        obtain ⟨before, c, hc, hfailed⟩ := exists_of_putAll_error (hr.symm.trans hfail)
        rcases List.mem_append.1 hc with hc | hc
        · obtain ⟨o, -, rfl⟩ := List.mem_map.1 hc
          cases congrArg Prod.snd hfailed
        · obtain ⟨o, ho, rfl⟩ := List.mem_map.1 hc
          exact .inr ⟨before, o, e, ho, rfl, hfailed⟩

/-! ### Reloads -/

/-- **A reload of what differs comes to a reload of everything.**  Take a running service that matches
its settings, and new settings that pass the check and of which each section can be put in force.

* All sections can be put in force in a row, and the reload leaves each of them as this would.
* The reload succeeds, unless an output that is new cannot be subscribed.
* If it succeeds, the settings of the service are the new ones, with the old values where only a start
  could change them; but if nothing differs they are the old ones.  Nothing differs exactly between
  settings that mean the same.
* Whatever happens later, the settings that only a start could change are those that the service was
  built with. -/
theorem reload_selective {world : World} {registry : IdentityRegistry} {calendar : Int}
    {registers : Bool} {s₀ : Service}
    (hnew : Service.new world registry calendar registers settings = .ok s₀) (events : List Event)
    (hs : s = (s₀.start tk).1.run tk events) (hmatches : s.Matches tk)
    (hvalid : new.validate = .ok ()) (hok : ∀ x, (s.put tk (new.change x)).2 = .ok ()) :
    let full := s.applyPatch tk .everySection new
    let r := s.reload tk new
    let patch := Patch.between s.settings new
    (full.2 = .ok () ∧ ∀ x, r.1.sections.AgreeOn full.1.sections x) ∧
      (r.2 = .ok patch ∨ ∃ (before : Service) (o : CertificateOutput) (e : Fault),
        o ∈ patch.added ∧ r.2 = .error e ∧ before.subscribeOutput tk o = (r.1, .error e)) ∧
      (r.2 = .ok patch → r.1.settings =
        if patch.isEmpty then s.settings else keepStartSettings s.settings new) ∧
      (patch.isEmpty = true ↔ s.settings.Alike new) ∧
      ∀ later, settings.SameStart (s.run tk later).settings := by
  intro full r patch
  obtain ⟨s₁, hfull, hagree⟩ := exists_applyPatch_everySection hok
  have hsections : ∀ {s' : Service}, (∀ x, s'.sections.AgreeOn (s.put tk (new.change x)).1.sections x) →
      full.2 = .ok () ∧ ∀ x, s'.sections.AgreeOn full.1.sections x := by
    intro s' h
    have heq : full = (s₁, .ok ()) := hfull
    rw [heq]
    exact ⟨rfl, fun x => (h x).trans (hagree x).symm⟩
  have hlater : ∀ later, settings.SameStart (s.run tk later).settings := by
    intro later
    obtain ⟨-, rfl, -⟩ := new_eq_ok hnew
    have hstart := sameStart_run tk (s₀.start tk).1 events
    rw [settings_start, ← hs] at hstart
    exact hstart.trans (sameStart_run tk s later)
  rcases reload_cases tk s new with ⟨e, hinvalid, -⟩ | ⟨-, ⟨hempty, heq⟩ | ⟨hdiffers, hrest⟩⟩
  · cases hvalid.symm.trans hinvalid
  · have hr : r = (s, .ok patch) := heq
    have hsame : ∀ x, s.sections.AgreeOn (s.put tk (new.change x)).1.sections x := fun x =>
      agreeOn_put_of_matches hmatches ((Patch.isEmpty_iff.1 hempty).1 x) (hok x)
    rw [hr]
    exact ⟨hsections hsame, .inl rfl, fun _ => (if_pos hempty).symm, Patch.isEmpty_between_iff, hlater⟩
  · obtain ⟨hchanged, hresult⟩ := putAll_reloadChanges hmatches hok
    have hsettings : ∀ {s' : Service}, s'.settings = keepStartSettings s.settings new →
        s'.settings = if patch.isEmpty then s.settings else keepStartSettings s.settings new := by
      intro s' h
      rw [h, if_neg (Bool.eq_false_iff.1 hdiffers)]
    rcases hrest with ⟨s', e, hput, heq⟩ | ⟨s', hput, heq⟩
    · -- An output failed, and by then all sections were in force.
      rw [hput] at hchanged hresult
      have hr : r = (s', .error e) := heq
      rw [hr]
      obtain hok' | ⟨before, o, e', ho, herror, hfailed⟩ := hresult
      · cases hok'
      · obtain rfl := Except.error.inj herror
        exact ⟨hsections hchanged, .inr ⟨before, o, e, ho, rfl, hfailed⟩, nofun,
          Patch.isEmpty_between_iff, hlater⟩
    · rw [hput] at hchanged
      have hr : r = ({ s' with settings := keepStartSettings s.settings new }, .ok patch) := heq
      rw [hr]
      exact ⟨hsections hchanged, .inl rfl, fun _ => hsettings rfl, Patch.isEmpty_between_iff, hlater⟩

/-! ### Another order of the outputs -/

open CertificateRun (plainToolkit)

/-- Settings with a generated authority and outputs. -/
def ellipticSettings (outputs : List CertificateOutput) : Settings :=
  { outputSettings outputs with authority := ⟨.ecdsaP256, none, none⟩ }

/-- The broker's certificates and the viewer's. -/
def brokerFirst : Settings := ellipticSettings [brokerAt "/first", viewerAt "/view"]

/-- A service that was started with them. -/
def brokerService : Service := ((onEmptyDisk brokerFirst).start plainToolkit).1

theorem matches_brokerService : brokerService.Matches plainToolkit where
  sections x hx := by
    cases x with
    | authority => exact absurd rfl hx
    | _ => decide +kernel
  authority := ⟨⟨"key", AuthorityStore.commonName, []⟩, by decide +kernel, by decide +kernel⟩

/-- Another capacity, another core device, and one output in the place of another. -/
def brokerMoved : Settings :=
  { ellipticSettings [viewerAt "/view", brokerAt "/second"] with
    session := { SessionSettings.standard with capacity := 3 }
    thingName := some "core" }

/-- The reload leaves what all sections would, and the core device stays the one of the start. -/
theorem reload_selective_moved :
    let full := brokerService.applyPatch plainToolkit .everySection brokerMoved
    let r := brokerService.reload plainToolkit brokerMoved
    brokerService.Matches plainToolkit ∧ brokerMoved.validate = .ok () ∧
      (∀ x, (brokerService.put plainToolkit (brokerMoved.change x)).2 = .ok ()) ∧
      (∀ x, r.1.sections.AgreeOn full.1.sections x) ∧ r.1.sections.capacity = 3 ∧
      r.1.settings = { brokerMoved with thingName := none } := by
  intro full r
  have hnew : Service.new CertificateRun.emptyWorld .empty 0 false brokerFirst =
      .ok (onEmptyDisk brokerFirst) :=
    new_onEmptyDisk brokerFirst (by decide +kernel)
  have hvalid : brokerMoved.validate = .ok () := by decide +kernel
  have hok : ∀ x, (brokerService.put plainToolkit (brokerMoved.change x)).2 = .ok () := by
    intro x
    cases x with
    | _ => decide +kernel
  obtain ⟨⟨-, hagree⟩, -, hsettings, -, -⟩ :=
    reload_selective hnew [] rfl matches_brokerService hvalid hok
  have hreload : r.2 = .ok (Patch.between brokerService.settings brokerMoved) := by decide +kernel
  refine ⟨matches_brokerService, hvalid, hok, hagree, by decide +kernel, ?_⟩
  rw [show r.1.settings = _ from hsettings hreload]
  decide +kernel

/-- The same outputs in another order. -/
def viewerFirst : Settings := ellipticSettings [viewerAt "/view", brokerAt "/first"]

/-- A reload of the same outputs in another order succeeds and finds that nothing differs, and the
service keeps the settings that it had. -/
theorem settings_reload_reordered :
    let r := brokerService.reload plainToolkit viewerFirst
    Service.new CertificateRun.emptyWorld .empty 0 false brokerFirst = .ok (onEmptyDisk brokerFirst) ∧
      ((onEmptyDisk brokerFirst).start plainToolkit).2 = .ok () ∧
      brokerService.Matches plainToolkit ∧ viewerFirst.validate = .ok () ∧
      (∀ x, (brokerService.put plainToolkit (viewerFirst.change x)).2 = .ok ()) ∧
      r.2 = .ok (Patch.between brokerService.settings viewerFirst) ∧
      r.1.settings ≠ keepStartSettings brokerService.settings viewerFirst := by
  intro r
  refine ⟨new_onEmptyDisk brokerFirst (by decide +kernel), by decide +kernel, matches_brokerService,
    by decide +kernel, fun x => ?_, by decide +kernel, by decide +kernel⟩
  cases x with
  | _ => decide +kernel

end Service

end DeviceAccess
