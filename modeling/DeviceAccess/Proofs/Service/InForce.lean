import DeviceAccess.Proofs.Service.Runs

/-!
# Whether the settings of a service are in force

A running service has its settings, and its gateway has the parts that settings put in force.  A section
is *in force* if its part of the gateway is the one that the settings of the service ask for
(`Traced.InForce`); the authority is, if it is what came of putting these very settings in force.

After a start all sections are in force.  A reload that fails on its way leaves the settings as they
were, but not the sections that it had already put in force, and from then on these are no longer the
ones of the settings.  The next reload is compared with the settings and not with what is in force.  So
a reload that succeeds puts right the sections that it changes and no others
(`Service.inForce_run`); one that asks for the settings of the service changes nothing at all
(`Service.reload_settings`).
-/

namespace DeviceAccess

namespace Service

/-- The settings that the authority was last put in force from, and what came of it. -/
abbrev Origin := Option (AuthoritySettings × Option AuthorityMaterial)

/-- The origin of the authority after a change was put in force. -/
def Change.origin (c : Change) (after : Service) (before : Origin) : Origin :=
  match c with
  | .authority settings _ => some (settings, after.sections.authority)
  | _ => before

variable (tk : Toolkit)

/-- The changes that are put in force before the first fault, each with the service after it. -/
def putLog (s : Service) : List Change → List (Change × Service)
  | [] => []
  | c :: cs =>
    match s.put tk c with
    | (s, .ok ()) => (c, s) :: putLog s cs
    | (_, .error _) => []

/-- The origin of the authority after changes were put in force. -/
def originAfter (before : Origin) (log : List (Change × Service)) : Origin :=
  log.foldl (fun origin e => e.1.origin e.2 origin) before

end Service

/-- What is in force for a section is what settings ask for. -/
def Gateway.Sections.Fit (live : Gateway.Sections) (origin : Service.Origin) (settings : Settings) :
    Section → Prop
  | .groups => Groups.ofDocument settings.groups = .ok live.groups
  | .session =>
    live.capacity = max 1 (min settings.session.capacity.toNat SessionManager.greatestCapacity)
  | .certificates => live.certificates = settings.certificates.clamped
  | .authority => origin = some (settings.authority, live.authority)
  | .connectivity => live.addresses = OrderedSet.ofList settings.connectivity.hostAddresses

instance (live : Gateway.Sections) (origin : Service.Origin) (settings : Settings) :
    (x : Section) → Decidable (live.Fit origin settings x)
  | .groups => inferInstanceAs (Decidable (Groups.ofDocument settings.groups = .ok live.groups))
  | .session =>
    inferInstanceAs (Decidable (live.capacity =
      max 1 (min settings.session.capacity.toNat SessionManager.greatestCapacity)))
  | .certificates => inferInstanceAs (Decidable (live.certificates = settings.certificates.clamped))
  | .authority => inferInstanceAs (Decidable (origin = some (settings.authority, live.authority)))
  | .connectivity =>
    inferInstanceAs (Decidable
      (live.addresses = OrderedSet.ofList settings.connectivity.hostAddresses))

namespace Service

variable {tk : Toolkit} {s s' : Service} {c : Change} {cs : List Change} {origin origin' : Origin}
  {settings new : Settings} {x : Section}

/-! ### What fits -/

/-- Whether a section fits is a matter of its own part of the gateway, and of the origin for the
authority. -/
theorem fit_congr {a b : Gateway.Sections} (h : a.AgreeOn b x)
    (horigin : x = .authority → origin' = origin) :
    a.Fit origin' settings x ↔ b.Fit origin settings x := by
  cases x with
  | groups => exact Eq.to_iff (congrArg (fun groups => _ = Except.ok groups) h)
  | session => exact Eq.to_iff (congrArg (· = _) h)
  | certificates => exact Eq.to_iff (congrArg (· = _) h)
  | authority =>
      rw [horigin rfl]
      exact Eq.to_iff (congrArg (fun material => _ = some (_, material)) h)
  | connectivity => exact Eq.to_iff (congrArg (· = _) h)

/-- Settings that do not differ in a section ask for the same. -/
theorem fit_iff_of_between {old : Settings} {live : Gateway.Sections}
    (h : (Patch.between old new).changes? x = false) :
    live.Fit origin old x ↔ live.Fit origin new x := by
  cases x with
  | groups =>
      have heq : old.groups = new.groups := of_not_not (of_decide_eq_false h)
      unfold Gateway.Sections.Fit
      rw [heq]
  | session =>
      have heq : old.session = new.session := of_not_not (of_decide_eq_false h)
      unfold Gateway.Sections.Fit
      rw [heq]
  | certificates =>
      have heq : old.certificates = new.certificates := of_not_not (of_decide_eq_false h)
      unfold Gateway.Sections.Fit
      rw [heq]
  | authority =>
      have heq : old.authority = new.authority := of_not_not (of_decide_eq_false h)
      unfold Gateway.Sections.Fit
      rw [heq]
  | connectivity =>
      have heq : old.connectivity = new.connectivity := of_not_not (of_decide_eq_false h)
      unfold Gateway.Sections.Fit
      rw [heq]

/-- The settings that a reload leaves ask for the same as those it was given. -/
theorem fit_keepStartSettings_iff (old new : Settings) (live : Gateway.Sections) :
    live.Fit origin (keepStartSettings old new) x ↔ live.Fit origin new x := by
  cases x with
  | _ => rfl

/-! ### One change -/

theorem origin_eq_of_section? (h : c.section? ≠ some .authority) (after : Service) (before : Origin) :
    c.origin after before = before := by
  cases c with
  | authority settings thing => exact absurd rfl h
  | _ => rfl

/-- A change that belongs to another section keeps a section fitting or not. -/
theorem fit_put_iff (h : c.section? ≠ some x) (hput : s.put tk c = (s', .ok ())) :
    s'.sections.Fit (c.origin s' origin) settings x ↔ s.sections.Fit origin settings x := by
  have hagree := agreeOn_put tk s h
  rw [hput] at hagree
  refine fit_congr hagree ?_
  rintro rfl
  exact origin_eq_of_section? h s' origin

/-- **A section that was put in force fits.** -/
theorem fit_put (hput : s.put tk (settings.change x) = (s', .ok ())) :
    s'.sections.Fit ((settings.change x).origin s' origin) settings x := by
  cases x with
  | groups =>
      rcases applyGroups_cases s settings.groups with ⟨groups, hgroups, hsections, -⟩ | ⟨e, -, herror⟩
      · rw [show s.applyGroups settings.groups = _ from hput] at hsections
        show Groups.ofDocument settings.groups = .ok s'.sections.groups
        rw [hgroups, show s'.sections = _ from hsections]
      · rw [show s.applyGroups settings.groups = _ from hput] at herror
        cases herror
  | session =>
      obtain ⟨rfl, -⟩ := Prod.mk.inj hput
      have hgateway := gateway_restartSweeps (s.setCapacity settings.session) settings.session
      show Gateway.Sections.capacity (Gateway.sections _) = _
      rw [hgateway]
      rfl
  | certificates =>
      obtain ⟨rfl, -⟩ := Prod.mk.inj hput
      rfl
  | authority => rfl
  | connectivity =>
      obtain ⟨rfl, -⟩ := Prod.mk.inj hput
      have hsections := Gateway.sections_recordAddresses tk s.deployment.calendar s.deployment.gateway
        settings.connectivity.hostAddresses
      show Gateway.Sections.addresses (Gateway.sections _) = _
      exact congrArg Gateway.Sections.addresses hsections

/-! ### Many changes -/

theorem putLog_cons_of_ok (h : s.put tk c = (s', .ok ())) (cs : List Change) :
    s.putLog tk (c :: cs) = (c, s') :: s'.putLog tk cs := by
  rw [putLog, h]

theorem putLog_cons_of_error {e : Fault} (h : s.put tk c = (s', .error e)) (cs : List Change) :
    s.putLog tk (c :: cs) = [] := by
  rw [putLog, h]

theorem originAfter_cons (e : Change × Service) (log : List (Change × Service)) :
    originAfter origin (e :: log) = originAfter (e.1.origin e.2 origin) log :=
  rfl

theorem fst_mem_of_mem_putLog {e : Change × Service} (h : e ∈ s.putLog tk cs) : e.1 ∈ cs := by
  induction cs generalizing s with
  | nil => cases h
  | cons c cs ih =>
      rcases hput : s.put tk c with ⟨s₁, f | ⟨⟩⟩
      · rw [putLog_cons_of_error hput] at h
        cases h
      · rw [putLog_cons_of_ok hput] at h
        rcases List.mem_cons.1 h with rfl | h
        · exact List.mem_cons_self
        · exact List.mem_cons_of_mem c (ih h)

/-- If no fault occurs, all changes are put in force. -/
theorem map_fst_putLog (h : s.putAll tk cs = (s', .ok ())) : (s.putLog tk cs).map (·.1) = cs := by
  induction cs generalizing s with
  | nil => rfl
  | cons c cs ih =>
      rcases hput : s.put tk c with ⟨s₁, e | ⟨⟩⟩
      · rw [putAll_cons_of_error hput] at h
        cases h
      · rw [putAll_cons_of_ok hput] at h
        rw [putLog_cons_of_ok hput, List.map_cons, ih h]

theorem exists_mem_putLog_iff (h : s.putAll tk cs = (s', .ok ())) :
    (∃ e ∈ s.putLog tk cs, e.1.section? = some x) ↔ ∃ c ∈ cs, c.section? = some x := by
  have hmem : (∃ c ∈ (s.putLog tk cs).map (·.1), c.section? = some x) ↔
      ∃ e ∈ s.putLog tk cs, e.1.section? = some x := by
    simp only [List.mem_map, exists_exists_and_eq_and]
  rw [map_fst_putLog h] at hmem
  exact hmem.symm

/-- **Many changes.**  A section fits afterwards if a change of it was put in force, and if none was,
it fits as before. -/
theorem fit_putAll_iff
    (h : ∀ e ∈ s.putLog tk cs, e.1.section? = some x → e.1 = settings.change x) :
    (s.putAll tk cs).1.sections.Fit (originAfter origin (s.putLog tk cs)) settings x ↔
      (∃ e ∈ s.putLog tk cs, e.1.section? = some x) ∨ s.sections.Fit origin settings x := by
  induction cs generalizing s origin with
  | nil => simp [putLog, putAll, originAfter]
  | cons c cs ih =>
      rcases hput : s.put tk c with ⟨s₁, e | ⟨⟩⟩
      · -- The change that fails leaves all sections as they were, and none is put in force after it.
        have hsections := sections_put_error (congrArg Prod.snd hput)
        rw [hput] at hsections
        rw [putAll_cons_of_error hput, putLog_cons_of_error hput,
          show s₁.sections = _ from hsections]
        simp [originAfter]
      · rw [putLog_cons_of_ok hput, List.forall_mem_cons] at h
        rw [putAll_cons_of_ok hput, putLog_cons_of_ok hput, originAfter_cons, ih h.2,
          List.exists_mem_cons_iff, or_assoc]
        by_cases hc : c.section? = some x
        · obtain rfl : c = settings.change x := h.1 hc
          exact iff_of_true (.inr (fit_put hput)) (.inl hc)
        · rw [or_iff_right hc, fit_put_iff hc hput]

/-! ### Runs -/

section
variable (tk : Toolkit)

/-- What an event puts in force. -/
def log (s : Service) : Event → List (Change × Service)
  | .reload new =>
    match new.validate with
    | .error _ => []
    | .ok () => s.putLog tk (s.reloadChanges new)
  | .pass _ _ | .files _ => []

/-- A service with the origin of its authority. -/
structure Traced where
  service : Service
  origin : Origin

/-- A service after its start. -/
def Traced.start (s : Service) : Traced :=
  ⟨(s.start tk).1, originAfter none (s.putLog tk (startChanges s.settings))⟩

/-- A service after an event. -/
def Traced.step (t : Traced) (event : Event) : Traced :=
  ⟨t.service.step tk event, originAfter t.origin (t.service.log tk event)⟩

/-- A service after events, one after the other. -/
def Traced.run (t : Traced) (events : List Event) : Traced := events.foldl (Traced.step tk) t

/-- What is in force for a section is what the settings of the service ask for. -/
def Traced.InForce (t : Traced) (x : Section) : Prop :=
  t.service.sections.Fit t.origin t.service.settings x

instance (t : Traced) (x : Section) : Decidable (t.InForce x) :=
  inferInstanceAs (Decidable (t.service.sections.Fit t.origin t.service.settings x))

/-- The event is a reload that fails after it put a section in force. -/
def Displaces (s : Service) (event : Event) (x : Section) : Prop :=
  ∃ new e, event = .reload new ∧ (s.reload tk new).2 = .error e ∧
    ∃ put ∈ s.log tk event, put.1.section? = some x

/-- Every reload that failed after it put a section in force was followed by one that succeeded and
changed this section. -/
inductive Settled (t : Traced) (x : Section) : List Event → Prop where
  | start : Settled t x []
  | changed {events : List Event} {new : Settings} {patch : Patch} :
      ((t.run tk events).service.reload tk new).2 = .ok patch → patch.changes? x = true →
        Settled t x (events ++ [.reload new])
  | kept {events : List Event} {event : Event} :
      Settled t x events → ¬Displaces tk (t.run tk events).service event x →
        Settled t x (events ++ [event])

end

variable {t : Traced} {events : List Event} {patch : Patch}

theorem Traced.run_concat (t : Traced) (events : List Event) (event : Event) :
    t.run tk (events ++ [event]) = (t.run tk events).step tk event := by
  unfold Traced.run
  rw [List.foldl_append]
  rfl

theorem Traced.service_run (t : Traced) (events : List Event) :
    (t.run tk events).service = t.service.run tk events := by
  induction events generalizing t with
  | nil => rfl
  | cons event events ih => exact ih (t.step tk event)

theorem log_reload (h : new.validate = .ok ()) :
    s.log tk (.reload new) = s.putLog tk (s.reloadChanges new) := by
  show (match new.validate with
    | .error _ => []
    | .ok () => s.putLog tk (s.reloadChanges new)) = _
  rw [h]

theorem log_reload_of_invalid (h : new.validate ≠ .ok ()) : s.log tk (.reload new) = [] := by
  show (match new.validate with
    | .error _ => []
    | .ok () => s.putLog tk (s.reloadChanges new)) = []
  cases hvalid : new.validate with
  | error e => rfl
  | ok u => exact absurd hvalid h

/-- Neither time nor other files change what settings put in force. -/
theorem sections_pass (s : Service) (calendar : Int) (millis : Nat) :
    (s.pass tk calendar millis).sections = s.sections :=
  (Gateway.keptBy_sections tk s.sections).wait (d := { s.deployment with calendar }) rfl millis

/-- What a reload puts in force for a section fits its settings. -/
theorem fit_reloadChanges_iff (tk : Toolkit) (s : Service) (new : Settings) (origin : Origin)
    (x : Section) :
    (s.putAll tk (s.reloadChanges new)).1.sections.Fit
        (originAfter origin (s.putLog tk (s.reloadChanges new))) new x ↔
      (∃ e ∈ s.putLog tk (s.reloadChanges new), e.1.section? = some x) ∨
        s.sections.Fit origin new x := by
  rw [← fit_keepStartSettings_iff s.settings new, ← fit_keepStartSettings_iff s.settings new]
  exact fit_putAll_iff fun e he hsection =>
    Patch.eq_change_of_mem_changes (fst_mem_of_mem_putLog he) hsection

/-- **A reload that succeeds** puts right the sections that it changes and no others. -/
theorem inForce_reload_iff (h : (t.service.reload tk new).2 = .ok patch) (x : Section) :
    (t.step tk (.reload new)).InForce x ↔ patch.changes? x = true ∨ t.InForce x := by
  unfold Traced.InForce Traced.step step
  simp only
  obtain ⟨hvalid, rfl, ⟨hempty, heq⟩ | ⟨-, s', hput, heq⟩⟩ := reload_ok_cases h
  · rw [log_reload hvalid, heq, reloadChanges, Patch.changes_of_isEmpty hempty,
      (Patch.isEmpty_iff.1 hempty).1 x]
    exact (or_iff_right Bool.false_ne_true).symm
  · have hfit := fit_reloadChanges_iff tk t.service new t.origin x
    rw [hput, exists_mem_putLog_iff hput, reloadChanges, Patch.exists_mem_changes_iff] at hfit
    rw [log_reload hvalid, heq]
    refine ((fit_keepStartSettings_iff _ _ _).trans hfit).trans ?_
    cases hx : (Patch.between t.service.settings new).changes? x with
    | true => simp
    | false => rw [fit_iff_of_between hx]

/-- A reload that fails leaves a section as it was unless it displaces it. -/
theorem inForce_reload_error_iff {e : Fault} (h : (t.service.reload tk new).2 = .error e)
    (hx : ¬Displaces tk t.service (.reload new) x) :
    (t.step tk (.reload new)).InForce x ↔ t.InForce x := by
  have hsettings := settings_reload_error h
  unfold Traced.InForce Traced.step step
  simp only
  rw [hsettings]
  rcases reload_error_cases h with ⟨hinvalid, heq⟩ | ⟨hvalid, hput⟩
  · rw [log_reload_of_invalid hinvalid, heq]
    rfl
  · have hnone : ∀ put ∈ t.service.putLog tk (t.service.reloadChanges new),
        put.1.section? ≠ some x := by
      intro put hput hsection
      exact hx ⟨new, e, rfl, h, put, by rwa [log_reload hvalid], hsection⟩
    have hfit : (t.service.putAll tk (t.service.reloadChanges new)).1.sections.Fit
        (originAfter t.origin (t.service.putLog tk (t.service.reloadChanges new)))
        t.service.settings x ↔ _ :=
      fit_putAll_iff fun put hput hsection => absurd hsection (hnone put hput)
    rw [hput] at hfit
    rw [log_reload hvalid]
    refine hfit.trans (or_iff_right ?_)
    rintro ⟨put, hput, hsection⟩
    exact hnone put hput hsection

/-- **A settled section is in force.** -/
theorem inForce_of_settled (hstart : t.InForce x) (h : Settled tk t x events) :
    (t.run tk events).InForce x := by
  induction h with
  | start => exact hstart
  | changed hreload hx =>
      rw [Traced.run_concat]
      exact (inForce_reload_iff hreload x).2 (.inl hx)
  | @kept events event _ hkept ih =>
      rw [Traced.run_concat]
      cases event with
      | reload new =>
          cases hreload : ((t.run tk events).service.reload tk new).2 with
          | error e => exact (inForce_reload_error_iff hreload hkept).2 ih
          | ok patch => exact (inForce_reload_iff hreload x).2 (.inr ih)
      | pass calendar millis =>
          unfold Traced.InForce at ih ⊢
          unfold Traced.step step
          simp only
          rw [sections_pass]
          exact ih
      | files f => exact ih

/-! ### From the start on -/

/-- After a start every section is in force. -/
theorem inForce_start {world : World} {registry : IdentityRegistry} {calendar : Int}
    {registers : Bool} (hnew : Service.new world registry calendar registers settings = .ok s)
    (hstart : (s.start tk).2 = .ok ()) (x : Section) : (Traced.start tk s).InForce x := by
  obtain ⟨-, rfl, hsubscriptions, groups, hgroups, hlive, hcapacity⟩ := new_eq_ok hnew
  obtain ⟨s', hput, hstarted⟩ := exists_putAll_of_start hstart
  have hsections : (s.start tk).1.sections = s'.sections := by
    unfold sections
    rw [hstarted, (frame_startTasks s').1]
  have hown : ∀ c ∈ startChanges s.settings, c.section? = some x →
      c = { s.settings with thingName := none }.change x := by
    intro c hc hsection
    rcases List.mem_cons.1 hc with rfl | hc
    · obtain rfl := Option.some.inj hsection
      rfl
    · rcases List.mem_cons.1 hc with rfl | hc
      · obtain rfl := Option.some.inj hsection
        rfl
      · obtain ⟨o, -, rfl⟩ := List.mem_map.1 hc
        cases hsection
  have hfit : (s.putAll tk (startChanges s.settings)).1.sections.Fit
      (originAfter none (s.putLog tk (startChanges s.settings)))
      { s.settings with thingName := none } x ↔ _ :=
    fit_putAll_iff fun e he hsection => hown e.1 (fst_mem_of_mem_putLog he) hsection
  rw [hput, exists_mem_putLog_iff hput] at hfit
  unfold Traced.InForce Traced.start
  rw [hsections, settings_start]
  have hwithout : ∀ live : Gateway.Sections, ∀ origin : Origin,
      live.Fit origin { s.settings with thingName := none } x ↔ live.Fit origin s.settings x := by
    intro live origin
    cases x with
    | _ => rfl
  rw [hwithout, hwithout] at hfit
  refine hfit.2 ?_
  cases x with
  | groups =>
      right
      show Groups.ofDocument s.settings.groups = .ok s.deployment.gateway.groups
      rw [hlive]
      exact hgroups
  | session => exact .inr hcapacity
  | certificates =>
      right
      show s.deployment.gateway.subscriptions.settings = _
      rw [hsubscriptions]
      rfl
  | authority => exact .inl ⟨_, List.mem_cons_self, rfl⟩
  | connectivity => exact .inl ⟨_, List.mem_cons_of_mem _ List.mem_cons_self, rfl⟩

/-! ### Asking for the settings of the service -/

/-- A reload that asks for the settings of the service changes nothing, whatever is in force. -/
theorem reload_settings (h : s.settings.validate = .ok ()) :
    s.reload tk s.settings = (s, .ok (Patch.between s.settings s.settings)) := by
  have hempty := Patch.isEmpty_between_self s.settings
  rcases reload_cases tk s s.settings with ⟨e, hinvalid, -⟩ | ⟨-, ⟨-, heq⟩ | ⟨hfull, -⟩⟩
  · cases h.symm.trans hinvalid
  · exact heq
  · exact absurd hempty (Bool.eq_false_iff.1 hfull)

/-- **What is in force in a running service.**  Over every run of reloads, successful or not, and of all
that goes on meanwhile:

* A section is in force if every reload that failed after it put this section in force was followed by
  one that succeeded and changed the section.
* After a reload that succeeds, exactly those sections are in force that it changed and those that were
  in force before.
* A reload that asks for the settings of the service succeeds and changes nothing. -/
theorem inForce_run {world : World} {registry : IdentityRegistry} {calendar : Int} {registers : Bool}
    (hnew : Service.new world registry calendar registers settings = .ok s)
    (hstart : (s.start tk).2 = .ok ()) (events : List Event) :
    let t := (Traced.start tk s).run tk events
    (∀ x, Settled tk (Traced.start tk s) x events → t.InForce x) ∧
      (∀ new patch, (t.service.reload tk new).2 = .ok patch → ∀ x,
        (t.step tk (.reload new)).InForce x ↔ patch.changes? x = true ∨ t.InForce x) ∧
      ∃ patch, t.service.reload tk t.service.settings = (t.service, .ok patch) ∧
        patch.isEmpty = true := by
  intro t
  refine ⟨fun x hsettled => inForce_of_settled (inForce_start hnew hstart x) hsettled,
    fun new patch hreload x => inForce_reload_iff hreload x, _, reload_settings ?_,
    Patch.isEmpty_between_self _⟩
  obtain ⟨hvalid, rfl, -⟩ := new_eq_ok hnew
  rw [Traced.service_run]
  exact validate_run (settings_start tk s ▸ hvalid) events

/-! ### A reload that fails on its way -/

open CertificateRun (plainToolkit emptyWorld)

/-- Settings to start with. -/
def plainSettings : Settings := { Settings.standard with workDir := ⟨"/work"⟩ }

/-- Other groups, another capacity, and an authority that is nowhere. -/
def tornSettings : Settings :=
  { plainSettings with
    groups :=
      { GroupDocument.empty with
        definitions := .ofList [("all", ⟨"thingName: *", "nothing"⟩)]
        policies := .ofList [("nothing", ∅)] }
    session := { SessionSettings.standard with capacity := 3 }
    authority := ⟨.rsa2048, some "file:///none", some "file:///none"⟩ }

/-- A service of the settings to start with. -/
def plainService : Service := onEmptyDisk plainSettings

theorem new_plainService : Service.new emptyWorld .empty 0 false plainSettings = .ok plainService :=
  new_onEmptyDisk _ (by decide +kernel)

/-- The settings that failed, with the authority of the start. -/
def mendedSettings : Settings := { tornSettings with authority := .standard }

/-- After a reload that failed, one that changes the same sections puts them right. -/
theorem inForce_run_mended :
    (plainService.start plainToolkit).2 = .ok () ∧
      let torn := (Traced.start plainToolkit plainService).step plainToolkit (.reload tornSettings)
      let mended := torn.step plainToolkit (.reload mendedSettings)
      ¬torn.InForce .groups ∧ mended.InForce .groups ∧ mended.InForce .session := by
  have hstart : (plainService.start plainToolkit).2 = .ok () := by decide +kernel
  refine ⟨hstart, ?_⟩
  intro torn mended
  have hreload : (torn.service.reload plainToolkit mendedSettings).2 =
      .ok (Patch.between plainSettings mendedSettings) := by
    decide +kernel
  obtain ⟨hsettled, -⟩ := inForce_run new_plainService hstart
    ([.reload tornSettings] ++ [.reload mendedSettings])
  exact ⟨by decide +kernel, hsettled .groups (.changed hreload (by decide +kernel)),
    hsettled .session (.changed hreload (by decide +kernel))⟩

/-- A reload whose authority is nowhere leaves its groups and its capacity in force, and asking for the
settings of the service once more succeeds without putting them right. -/
theorem displaced_tornSettings :
    let started := Traced.start plainToolkit plainService
    let torn := started.step plainToolkit (.reload tornSettings)
    let after := torn.step plainToolkit (.reload plainSettings)
    Service.new emptyWorld .empty 0 false plainSettings = .ok plainService ∧
      (plainService.start plainToolkit).2 = .ok () ∧
      (started.service.reload plainToolkit tornSettings).2 =
        .error (.invalidConfiguration "File not found: /none") ∧
      (∃ patch, (torn.service.reload plainToolkit plainSettings).2 = .ok patch) ∧
      after.service.settings = plainSettings ∧ ¬after.InForce .groups ∧ ¬after.InForce .session := by
  intro started torn after
  exact ⟨new_plainService, by decide +kernel, by decide +kernel,
    ⟨Patch.between plainSettings plainSettings, by decide +kernel⟩, by decide +kernel,
    by decide +kernel, by decide +kernel⟩

end Service

end DeviceAccess
