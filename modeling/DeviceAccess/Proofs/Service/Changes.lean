import DeviceAccess.Proofs.Attempt
import DeviceAccess.Proofs.Gateway.Sections
import DeviceAccess.Service.Reload

/-!
# Settings put in force piece by piece

A start and a reload put settings in force in pieces, one after the other up to the first fault.  Such a
piece is a `Service.Change`, and `Service.putAll` puts a list of them in force.  A reload does so with
the changes of its patch (`Service.applyPatch_eq_putAll`), a start with those that lead from nothing to
its settings, after which it adds its tasks (`Service.start_eq_putAll`).

A change of a section concerns this section only, and changes of outputs concern no section
(`Service.agreeOn_put`).
-/

namespace DeviceAccess

namespace Service

/-- A piece of the settings that is put in force by itself. -/
inductive Change where
  | groups (document : GroupDocument)
  | session (settings : SessionSettings)
  | certificates (settings : LeafSettings)
  /-- The authority, which is then registered for a core device. -/
  | authority (settings : AuthoritySettings) (thing : Option String)
  | connectivity (settings : ConnectivitySettings)
  | unsubscribe (output : CertificateOutput)
  | subscribe (output : CertificateOutput)

/-- The section that a change belongs to; outputs belong to none. -/
def Change.section? : Change → Option Section
  | .groups _ => some .groups
  | .session _ => some .session
  | .certificates _ => some .certificates
  | .authority _ _ => some .authority
  | .connectivity _ => some .connectivity
  | .unsubscribe _ | .subscribe _ => none

variable (tk : Toolkit)

/-- Puts an authority in force and registers it. -/
def putAuthority (s : Service) (settings : AuthoritySettings) (thing : Option String) :
    Service × Except Fault Unit :=
  match s.adopt (s.deployment.configureAuthority tk [] settings) with
  | (s, .error e) => (s, .error e)
  | (s, .ok ()) => (s.startUpload thing, .ok ())

/-- Puts a change in force. -/
def put (s : Service) : Change → Service × Except Fault Unit
  | .groups document => s.applyGroups document
  | .session settings => ((s.setCapacity settings).restartSweeps settings, .ok ())
  | .certificates settings => (s.configureLeaves settings, .ok ())
  | .authority settings thing => s.putAuthority tk settings thing
  | .connectivity settings => (s.recordAddresses tk settings, .ok ())
  | .unsubscribe output => (s.unsubscribeOutput output, .ok ())
  | .subscribe output => s.subscribeOutput tk output

/-- Puts changes in force up to the first fault. -/
def putAll (s : Service) : List Change → Service × Except Fault Unit
  | [] => (s, .ok ())
  | c :: cs =>
    match s.put tk c with
    | (s, .ok ()) => putAll s cs
    | (s, .error e) => (s, .error e)

end Service

/-- The change that puts a section of settings in force. -/
def Settings.change (settings : Settings) : Section → Service.Change
  | .groups => .groups settings.groups
  | .session => .session settings.session
  | .certificates => .certificates settings.certificates
  | .authority => .authority settings.authority settings.thingName
  | .connectivity => .connectivity settings.connectivity

theorem Settings.section?_change (settings : Settings) (x : Section) :
    (settings.change x).section? = some x := by
  cases x with
  | _ => rfl

/-! ### Patches -/

theorem sameEntries_self {α : Type} {same : α → α → Bool} (h : ∀ a, same a a = true) (as : List α) :
    sameEntries same as as = true := by
  induction as with
  | nil => rfl
  | cons a as ih =>
      unfold sameEntries
      rw [h, ih]
      rfl

theorem Path.same_self (p : Path) : p.same p = true :=
  decide_eq_true rfl

theorem CertificateOutput.same_self (o : CertificateOutput) : o.same o = true := by
  unfold CertificateOutput.same
  simp [Path.same_self]

theorem RegistrySettings.same_self (r : RegistrySettings) : r.same r = true := by
  refine sameEntries_self (fun c => ?_) r.certificates
  unfold RegisteredCertificate.same
  simp [Path.same_self]

namespace Patch

/-- Whether a section differs. -/
def changes? (p : Patch) : Section → Bool
  | .groups => p.groups
  | .session => p.session
  | .certificates => p.certificates
  | .authority => p.authority
  | .connectivity => p.connectivity

/-- What has to be put in force, in its order. -/
def changes (p : Patch) (new : Settings) : List Service.Change :=
  (if p.groups then [.groups new.groups] else []) ++
    ((if p.session then [.session new.session] else []) ++
      ((if p.certificates then [.certificates new.certificates] else []) ++
        ((if p.authority then [.authority new.authority new.thingName] else []) ++
          ((if p.connectivity then [.connectivity new.connectivity] else []) ++
            (p.removed.map .unsubscribe ++ p.added.map .subscribe)))))

/-- A change of the list is the one of a section that differs, or of an output. -/
theorem mem_changes_iff {p : Patch} {new : Settings} {c : Service.Change} :
    c ∈ p.changes new ↔ (∃ x, p.changes? x = true ∧ c = new.change x) ∨
      (∃ o ∈ p.removed, c = .unsubscribe o) ∨ ∃ o ∈ p.added, c = .subscribe o := by
  have hite : ∀ (b : Bool) (d : Service.Change),
      c ∈ (if b then [d] else []) ↔ b = true ∧ c = d := by
    intro b d
    cases b with
    | false => simp
    | true => simp
  have hsections : (∃ x, p.changes? x = true ∧ c = new.change x) ↔
      (p.groups = true ∧ c = .groups new.groups) ∨ (p.session = true ∧ c = .session new.session) ∨
        (p.certificates = true ∧ c = .certificates new.certificates) ∨
        (p.authority = true ∧ c = .authority new.authority new.thingName) ∨
        (p.connectivity = true ∧ c = .connectivity new.connectivity) := by
    constructor
    · rintro ⟨x, hx, hc⟩
      cases x with
      | groups => exact .inl ⟨hx, hc⟩
      | session => exact .inr (.inl ⟨hx, hc⟩)
      | certificates => exact .inr (.inr (.inl ⟨hx, hc⟩))
      | authority => exact .inr (.inr (.inr (.inl ⟨hx, hc⟩)))
      | connectivity => exact .inr (.inr (.inr (.inr ⟨hx, hc⟩)))
    · rintro (h | h | h | h | h)
      · exact ⟨.groups, h⟩
      · exact ⟨.session, h⟩
      · exact ⟨.certificates, h⟩
      · exact ⟨.authority, h⟩
      · exact ⟨.connectivity, h⟩
  unfold changes
  simp only [List.mem_append, hite, List.mem_map, hsections, or_assoc]
  simp only [eq_comm]

/-- Of a section that differs there is one change, and of another section there is none. -/
theorem exists_mem_changes_iff {p : Patch} {new : Settings} {x : Section} :
    (∃ c ∈ p.changes new, c.section? = some x) ↔ p.changes? x = true := by
  constructor
  · rintro ⟨c, hc, hsection⟩
    rcases mem_changes_iff.1 hc with ⟨y, hy, rfl⟩ | ⟨o, -, rfl⟩ | ⟨o, -, rfl⟩
    · rw [Settings.section?_change] at hsection
      exact Option.some.inj hsection ▸ hy
    · cases hsection
    · cases hsection
  · intro hx
    exact ⟨new.change x, mem_changes_iff.2 (.inl ⟨x, hx, rfl⟩), Settings.section?_change new x⟩

theorem eq_change_of_mem_changes {p : Patch} {new : Settings} {x : Section} {c : Service.Change}
    (hc : c ∈ p.changes new) (hsection : c.section? = some x) : c = new.change x := by
  rcases mem_changes_iff.1 hc with ⟨y, -, rfl⟩ | ⟨o, -, rfl⟩ | ⟨o, -, rfl⟩
  · rw [Settings.section?_change] at hsection
    rw [Option.some.inj hsection]
  · cases hsection
  · cases hsection

theorem isEmpty_iff {p : Patch} : p.isEmpty = true ↔
    (∀ x, p.changes? x = false) ∧ p.added = [] ∧ p.removed = [] ∧ p.restart = [] := by
  have hall : (∀ x, p.changes? x = false) ↔ p.groups = false ∧ p.session = false ∧
      p.certificates = false ∧ p.authority = false ∧ p.connectivity = false := by
    constructor
    · exact fun h => ⟨h .groups, h .session, h .certificates, h .authority, h .connectivity⟩
    · rintro ⟨hgroups, hsession, hcertificates, hauthority, hconnectivity⟩ x
      cases x with
      | groups => exact hgroups
      | session => exact hsession
      | certificates => exact hcertificates
      | authority => exact hauthority
      | connectivity => exact hconnectivity
  unfold isEmpty
  rw [hall]
  simp only [Bool.and_eq_true, Bool.not_eq_true', List.isEmpty_iff, and_assoc]

/-- Settings do not differ from themselves. -/
theorem isEmpty_between_self (settings : Settings) : (between settings settings).isEmpty = true := by
  have hnew : ∀ o ∈ settings.outputs, (!listed settings.outputs o) = false := by
    intro o ho
    rw [Bool.not_eq_false']
    exact List.any_eq_true.2 ⟨o, ho, CertificateOutput.same_self o⟩
  have hoff : settings.outputs.filter (fun o => !listed settings.outputs o) = [] :=
    List.filter_eq_nil_iff.2 fun o ho => by
      rw [hnew o ho]
      exact Bool.false_ne_true
  refine isEmpty_iff.2 ⟨fun x => ?_, hoff, hoff, ?_⟩
  · cases x with
    | _ => simp [changes?, between]
  · unfold between
    simp [Path.same_self, RegistrySettings.same_self]

/-- If nothing differs there is nothing to put in force. -/
theorem changes_of_isEmpty {p : Patch} (h : p.isEmpty = true) (new : Settings) :
    p.changes new = [] := by
  obtain ⟨hsections, hadded, hremoved, -⟩ := isEmpty_iff.1 h
  refine List.eq_nil_iff_forall_not_mem.2 fun c hc => ?_
  rcases mem_changes_iff.1 hc with ⟨x, hx, -⟩ | ⟨o, ho, -⟩ | ⟨o, ho, -⟩
  · rw [hsections x] at hx
    cases hx
  · rw [hremoved] at ho
    cases ho
  · rw [hadded] at ho
    cases ho

end Patch

namespace Service

variable {tk} {s s' : Service} {c : Change} {cs : List Change}

/-! ### Tasks -/

theorem gateway_addTask (d : Deployment) (owner : TaskOwner) (work : Work) :
    (d.addTask owner work).gateway = d.gateway := by
  unfold Deployment.addTask
  split
  · rfl
  · rfl

theorem frame_startUpload (s : Service) (thing : Option String) :
    (s.startUpload thing).deployment.gateway = s.deployment.gateway ∧
      (s.startUpload thing).settings = s.settings := by
  unfold startUpload
  split
  · exact ⟨gateway_addTask _ _ _, rfl⟩
  · exact ⟨rfl, rfl⟩

/-- To put an authority in force and to register it is, for the gateway, to put it in force. -/
theorem frame_putAuthority (tk : Toolkit) (s : Service) (settings : AuthoritySettings)
    (thing : Option String) :
    (s.putAuthority tk settings thing).1.deployment.gateway =
        (s.deployment.configureAuthority tk [] settings).1.gateway ∧
      (s.putAuthority tk settings thing).1.settings = s.settings ∧
      (s.putAuthority tk settings thing).2 = (s.deployment.configureAuthority tk [] settings).2 := by
  unfold putAuthority adopt
  rcases s.deployment.configureAuthority tk [] settings with ⟨d, e | ⟨⟩⟩
  · exact ⟨rfl, rfl, rfl⟩
  · obtain ⟨hgateway, hsettings⟩ := frame_startUpload { s with deployment := d } thing
    exact ⟨hgateway, hsettings, rfl⟩

/-- The sweeps are tasks and nothing else. -/
theorem gateway_restartSweeps (s : Service) (settings : SessionSettings) :
    (s.restartSweeps settings).deployment.gateway = s.deployment.gateway := by
  unfold restartSweeps
  simp only
  rw [gateway_addTask, gateway_addTask]
  rfl

/-! ### Many changes -/

theorem putAll_cons_of_ok (h : s.put tk c = (s', .ok ())) (cs : List Change) :
    s.putAll tk (c :: cs) = s'.putAll tk cs := by
  rw [putAll, h]

theorem putAll_cons_of_error {e : Fault} (h : s.put tk c = (s', .error e)) (cs : List Change) :
    s.putAll tk (c :: cs) = (s', .error e) := by
  rw [putAll, h]

theorem putAll_append_of_ok (h : s.putAll tk cs = (s', .ok ())) (more : List Change) :
    s.putAll tk (cs ++ more) = s'.putAll tk more := by
  induction cs generalizing s with
  | nil =>
      obtain ⟨rfl, -⟩ := Prod.mk.inj h
      rfl
  | cons c cs ih =>
      rcases hput : s.put tk c with ⟨s₁, e | ⟨⟩⟩
      · rw [putAll_cons_of_error hput] at h
        cases h
      · rw [putAll_cons_of_ok hput] at h
        rw [List.cons_append, putAll_cons_of_ok hput]
        exact ih h

/-- Changes that fail do so at one of them. -/
theorem exists_of_putAll_error {e : Fault} (h : s.putAll tk cs = (s', .error e)) :
    ∃ before : Service, ∃ c ∈ cs, before.put tk c = (s', .error e) := by
  induction cs generalizing s with
  | nil => cases h
  | cons c cs ih =>
      rcases hput : s.put tk c with ⟨s₁, e' | ⟨⟩⟩
      · rw [putAll_cons_of_error hput] at h
        exact ⟨s, c, List.mem_cons_self, hput.trans h⟩
      · rw [putAll_cons_of_ok hput] at h
        obtain ⟨before, c', hc', hfail⟩ := ih h
        exact ⟨before, c', List.mem_cons_of_mem c hc', hfail⟩

/-- A change that may or may not have to be made, before others. -/
theorem putAll_ite_append (b : Bool) (c : Change) (rest : List Change) (s : Service) :
    s.putAll tk ((if b then [c] else []) ++ rest) =
      match (if b then s.put tk c else (s, .ok ())) with
      | (s, .ok ()) => s.putAll tk rest
      | (s, .error e) => (s, .error e) := by
  cases b with
  | false => rfl
  | true => rfl

theorem putAll_unsubscribe_append (outputs : List CertificateOutput) (rest : List Change)
    (s : Service) : s.putAll tk (outputs.map .unsubscribe ++ rest) =
      (outputs.foldl unsubscribeOutput s).putAll tk rest := by
  induction outputs generalizing s with
  | nil => rfl
  | cons o outputs ih => exact ih _

theorem putAll_subscribe (outputs : List CertificateOutput) (s : Service) :
    s.putAll tk (outputs.map .subscribe) = s.subscribeOutputs tk outputs := by
  induction outputs generalizing s with
  | nil => rfl
  | cons o outputs ih =>
      have hput : s.put tk (.subscribe o) = s.subscribeOutput tk o := rfl
      rw [List.map_cons, subscribeOutputs]
      rcases h : s.subscribeOutput tk o with ⟨s', e | ⟨⟩⟩
      · exact putAll_cons_of_error (hput.trans h) _
      · rw [putAll_cons_of_ok (hput.trans h)]
        exact ih s'

theorem putAll_sweeps (s : Service) (patch : Patch) (new : Settings) (rest : List Change) :
    s.putAll tk ((if patch.session then [.session new.session] else []) ++
        ((if patch.certificates then [.certificates new.certificates] else []) ++ rest)) =
      (s.applySweeps patch new).putAll tk rest := by
  unfold applySweeps
  cases patch.session with
  | false =>
      cases patch.certificates with
      | false => rfl
      | true => rfl
  | true =>
      cases patch.certificates with
      | false => rfl
      | true => rfl

theorem putAll_authority (s : Service) (patch : Patch) (new : Settings) (rest : List Change) :
    s.putAll tk ((if patch.authority then [.authority new.authority new.thingName] else []) ++ rest) =
      match s.applyAuthority tk patch new with
      | (s, .ok ()) => s.putAll tk rest
      | (s, .error e) => (s, .error e) := by
  rw [putAll_ite_append]
  unfold applyAuthority
  cases patch.authority with
  | false => rfl
  | true => rfl

theorem putAll_outputs (s : Service) (patch : Patch) (new : Settings) :
    s.putAll tk ((if patch.connectivity then [.connectivity new.connectivity] else []) ++
        (patch.removed.map .unsubscribe ++ patch.added.map .subscribe)) =
      s.applyOutputs tk patch new := by
  unfold applyOutputs
  rw [putAll_ite_append]
  cases patch.connectivity with
  | false =>
      rw [← putAll_subscribe]
      exact putAll_unsubscribe_append _ _ s
  | true =>
      rw [← putAll_subscribe]
      exact putAll_unsubscribe_append _ _ (s.recordAddresses tk new.connectivity)

/-- **A reload puts the changes of its patch in force.** -/
theorem applyPatch_eq_putAll (s : Service) (patch : Patch) (new : Settings) :
    s.applyPatch tk patch new = s.putAll tk (patch.changes new) := by
  unfold Patch.changes applyPatch
  rw [putAll_ite_append]
  simp only [put]
  rcases (if patch.groups = true then s.applyGroups new.groups else (s, .ok ())) with ⟨s₁, e | ⟨⟩⟩
  · rfl
  · simp only
    rw [putAll_sweeps, putAll_authority]
    rcases (s₁.applySweeps patch new).applyAuthority tk patch new with ⟨s₂, e | ⟨⟩⟩
    · rfl
    · exact (putAll_outputs s₂ patch new).symm

/-- Changes keep the settings as they were; only a reload as a whole replaces them. -/
theorem settings_put (tk : Toolkit) (s : Service) (c : Change) :
    (s.put tk c).1.settings = s.settings := by
  cases c with
  | groups document => rfl
  | session settings => rfl
  | certificates settings => rfl
  | authority settings thing => exact (frame_putAuthority tk s settings thing).2.1
  | connectivity settings => rfl
  | unsubscribe output => rfl
  | subscribe output => rfl

theorem settings_putAll (tk : Toolkit) (s : Service) (cs : List Change) :
    (s.putAll tk cs).1.settings = s.settings := by
  induction cs generalizing s with
  | nil => rfl
  | cons c cs ih =>
      have hput := settings_put tk s c
      rcases h : s.put tk c with ⟨s', e | ⟨⟩⟩
      · rw [putAll_cons_of_error h]
        rw [h] at hput
        exact hput
      · rw [putAll_cons_of_ok h]
        rw [h] at hput
        exact (ih s').trans hput

/-! ### Reloads -/

/-- What a reload puts in force. -/
def reloadChanges (s : Service) (new : Settings) : List Change :=
  (Patch.between s.settings new).changes (keepStartSettings s.settings new)

/-- What a reload comes to: the settings are refused, or nothing differs, or the changes are put in force
up to a fault, or all of them are and the settings are replaced. -/
theorem reload_cases (tk : Toolkit) (s : Service) (new : Settings) :
    (∃ e, new.validate = .error e ∧ s.reload tk new = (s, .error e)) ∨
      new.validate = .ok () ∧
        (((Patch.between s.settings new).isEmpty = true ∧
            s.reload tk new = (s, .ok (Patch.between s.settings new))) ∨
          (Patch.between s.settings new).isEmpty = false ∧
            ((∃ s' e, s.putAll tk (s.reloadChanges new) = (s', .error e) ∧
                s.reload tk new = (s', .error e)) ∨
              ∃ s', s.putAll tk (s.reloadChanges new) = (s', .ok ()) ∧
                s.reload tk new = ({ s' with settings := keepStartSettings s.settings new },
                  .ok (Patch.between s.settings new)))) := by
  unfold reload reloadChanges
  cases new.validate with
  | error e => exact .inl ⟨e, rfl, rfl⟩
  | ok u =>
      refine .inr ⟨rfl, ?_⟩
      simp only
      cases (Patch.between s.settings new).isEmpty with
      | true => exact .inl ⟨rfl, rfl⟩
      | false =>
          refine .inr ⟨rfl, ?_⟩
          rw [if_neg Bool.false_ne_true, applyPatch_eq_putAll]
          rcases s.putAll tk ((Patch.between s.settings new).changes
            (keepStartSettings s.settings new)) with ⟨s', e | ⟨⟩⟩
          · exact .inl ⟨s', e, rfl, rfl⟩
          · exact .inr ⟨s', rfl, rfl⟩

/-! ### What changes concern -/

/-- What is in force in the gateway of the service. -/
def sections (s : Service) : Gateway.Sections := s.deployment.gateway.sections

theorem applyGroups_cases (s : Service) (document : GroupDocument) :
    (∃ groups, Groups.ofDocument document = .ok groups ∧
        (s.applyGroups document).1.sections = { s.sections with groups } ∧
        (s.applyGroups document).2 = .ok ()) ∨
      ∃ e, (s.applyGroups document).1.sections = s.sections ∧
        (s.applyGroups document).2 = .error e := by
  unfold applyGroups Gateway.applyGroups Groups.apply
  cases Groups.ofDocument document with
  | ok groups => exact .inl ⟨groups, rfl, rfl, rfl⟩
  | error e => exact .inr ⟨e.fault, rfl, rfl⟩

/-- Groups can be put in force if their document can be used, whatever is in force. -/
theorem applyGroups_eq_ok_iff {document : GroupDocument} :
    (s.applyGroups document).2 = .ok () ↔ ∃ groups, Groups.ofDocument document = .ok groups := by
  unfold applyGroups Gateway.applyGroups Groups.apply
  cases Groups.ofDocument document with
  | error e => exact iff_of_false nofun nofun
  | ok groups => exact iff_of_true rfl ⟨groups, rfl⟩

/-- To put an authority in force concerns the authority only, and nothing if it fails. -/
theorem sections_putAuthority (tk : Toolkit) (s : Service) (settings : AuthoritySettings)
    (thing : Option String) :
    ∃ material, (s.putAuthority tk settings thing).1.sections =
        { s.sections with authority := material } ∧
      ((s.putAuthority tk settings thing).2 ≠ .ok () → material = s.sections.authority) := by
  obtain ⟨hgateway, -, hresult⟩ := frame_putAuthority tk s settings thing
  rw [sections, hgateway, hresult]
  rcases (Gateway.keptBy_sections tk s.sections).configureAuthority_cases (d := s.deployment) rfl []
    settings with ⟨hsections, -⟩ | ⟨g, now, o, hg, hsettled, houtcome, hmaterial⟩
  · exact ⟨s.sections.authority, hsections, fun _ => rfl⟩
  · refine ⟨o.store.material, ?_, fun hfail => ?_⟩
    · rw [hsettled, Gateway.sections_settle, hg]
    · rw [hmaterial (houtcome ▸ hfail), ← hg]
      rfl

/-- **Changes concern their own section.** -/
theorem agreeOn_put (tk : Toolkit) (s : Service) {x : Section} (h : c.section? ≠ some x) :
    (s.put tk c).1.sections.AgreeOn s.sections x := by
  cases c with
  | groups document =>
      rcases applyGroups_cases s document with ⟨groups, -, hsections, -⟩ | ⟨e, hsections, -⟩
      · rw [show (s.put tk (.groups document)).1.sections = _ from hsections]
        cases x with
        | groups => exact absurd rfl h
        | _ => rfl
      · rw [show (s.put tk (.groups document)).1.sections = _ from hsections]
        exact .refl _ x
  | session settings =>
      have hgateway := gateway_restartSweeps (s.setCapacity settings) settings
      rw [show (s.put tk (.session settings)).1.sections = _ from congrArg Gateway.sections hgateway]
      cases x with
      | session => exact absurd rfl h
      | _ => rfl
  | certificates settings =>
      cases x with
      | certificates => exact absurd rfl h
      | _ => rfl
  | authority settings thing =>
      obtain ⟨material, hsections, -⟩ := sections_putAuthority tk s settings thing
      rw [show (s.put tk (.authority settings thing)).1.sections = _ from hsections]
      cases x with
      | authority => exact absurd rfl h
      | _ => rfl
  | connectivity settings =>
      have hsections := Gateway.sections_recordAddresses tk s.deployment.calendar s.deployment.gateway
        settings.hostAddresses
      rw [show (s.put tk (.connectivity settings)).1.sections = _ from hsections]
      cases x with
      | connectivity => exact absurd rfl h
      | _ => rfl
  | unsubscribe output =>
      have hsections := Gateway.sections_unsubscribe s.deployment.gateway output.key
      rw [show (s.put tk (.unsubscribe output)).1.sections = _ from hsections]
      exact .refl _ x
  | subscribe output =>
      have hsections := Gateway.sections_subscribe tk s.deployment.calendar s.deployment.gateway
        output.key (.directory output.directory)
      rw [show (s.put tk (.subscribe output)).1.sections = _ from hsections]
      exact .refl _ x

/-- A change that fails leaves every section as it was. -/
theorem sections_put_error {e : Fault} (h : (s.put tk c).2 = .error e) :
    (s.put tk c).1.sections = s.sections := by
  cases c with
  | groups document =>
      rcases applyGroups_cases s document with ⟨groups, -, -, hok⟩ | ⟨e', hsections, -⟩
      · cases h.symm.trans hok
      · exact hsections
  | session settings => cases h
  | certificates settings => cases h
  | authority settings thing =>
      obtain ⟨material, hsections, hsame⟩ := sections_putAuthority tk s settings thing
      rw [show (s.put tk (.authority settings thing)).1.sections = _ from hsections,
        hsame fun hok => nomatch h.symm.trans hok]
  | connectivity settings => cases h
  | unsubscribe output => cases h
  | subscribe output =>
      exact Gateway.sections_subscribe tk s.deployment.calendar s.deployment.gateway
        output.key (.directory output.directory)

/-- Changes that belong to other sections leave a section as it was, also if one of them fails. -/
theorem agreeOn_putAll (tk : Toolkit) (s : Service) {x : Section}
    (h : ∀ c ∈ cs, c.section? ≠ some x) : (s.putAll tk cs).1.sections.AgreeOn s.sections x := by
  induction cs generalizing s with
  | nil => exact .refl _ x
  | cons c cs ih =>
      obtain ⟨hc, hcs⟩ := List.forall_mem_cons.1 h
      have hput := agreeOn_put tk s hc
      rcases heq : s.put tk c with ⟨s₁, e | ⟨⟩⟩
      · rw [heq] at hput
        rw [putAll_cons_of_error heq]
        exact hput
      · rw [heq] at hput
        rw [putAll_cons_of_ok heq]
        exact (ih s₁ hcs).trans hput

/-! ### The start -/

/-- Without a core device nothing is registered. -/
theorem startUpload_none (s : Service) : s.startUpload none = s := by
  unfold startUpload
  cases s.registers with
  | false => rfl
  | true => rfl

theorem putAuthority_none (s : Service) (settings : AuthoritySettings) :
    s.putAuthority tk settings none = s.adopt (s.deployment.configureAuthority tk [] settings) := by
  unfold putAuthority
  rcases s.adopt (s.deployment.configureAuthority tk [] settings) with ⟨s', e | ⟨⟩⟩
  · rfl
  · exact congrArg (·, Except.ok ()) (startUpload_none s')

/-- A new service has checked settings, of which the groups, the capacity and the settings of issued
certificates are in force. -/
theorem new_eq_ok {world : World} {registry : IdentityRegistry} {calendar : Int} {registers : Bool}
    {settings : Settings} (h : new world registry calendar registers settings = .ok s) :
    settings.validate = .ok () ∧ s.settings = settings ∧
      s.deployment.gateway.subscriptions = .empty settings.certificates ∧
      ∃ groups, Groups.ofDocument settings.groups = .ok groups ∧
        s.deployment.gateway.groups = groups ∧
        s.deployment.gateway.sessions.capacity =
          max 1 (min settings.session.capacity.toNat SessionManager.greatestCapacity) := by
  unfold new at h
  obtain ⟨_, hvalid, h⟩ := bind_eq_ok_iff.1 h
  obtain ⟨_, _, h⟩ := bind_eq_ok_iff.1 h
  obtain ⟨_, happlied, h⟩ := bind_eq_ok_iff.1 h
  obtain rfl := Except.ok.inj h
  refine ⟨hvalid, rfl, rfl, ?_⟩
  cases hgroups : Groups.ofDocument settings.groups with
  | ok groups => exact ⟨groups, rfl, rfl, rfl⟩
  | error e =>
      rw [hgroups] at happlied
      cases happlied

/-- What a start puts in force. -/
def startChanges (settings : Settings) : List Change :=
  .authority settings.authority none :: .connectivity settings.connectivity ::
    settings.outputs.map .subscribe

/-- Adds the tasks of the service. -/
def startTasks (s : Service) : Service :=
  let s := s.restartSweeps s.settings.session
  let s := { s with deployment := s.deployment.addTask .service (.renew renewalPeriod) }
  s.startUpload s.settings.thingName

/-- **A start puts its settings in force and adds its tasks.** -/
theorem start_eq_putAll (s : Service) :
    s.start tk = match s.putAll tk (startChanges s.settings) with
      | (s, .error e) => (s, .error e)
      | (s, .ok ()) => (s.startTasks, .ok ()) := by
  unfold start startChanges
  have hput : s.put tk (.authority s.settings.authority none) =
      s.adopt (s.deployment.configureAuthority tk [] s.settings.authority) :=
    putAuthority_none s s.settings.authority
  have hsettings := settings_put tk s (.authority s.settings.authority none)
  rcases h : s.adopt (s.deployment.configureAuthority tk [] s.settings.authority) with ⟨s', e | ⟨⟩⟩
  · rw [putAll_cons_of_error (hput.trans h)]
  · rw [hput, h] at hsettings
    rw [putAll_cons_of_ok (hput.trans h)]
    simp only
    have hrest : s'.putAll tk (.connectivity s.settings.connectivity ::
        s.settings.outputs.map .subscribe) =
        (s'.recordAddresses tk s'.settings.connectivity).subscribeOutputs tk
          (s'.recordAddresses tk s'.settings.connectivity).settings.outputs := by
      rw [← putAll_subscribe, show (s'.recordAddresses tk s'.settings.connectivity).settings =
        s'.settings from rfl, show s'.settings = s.settings from hsettings]
      rfl
    rw [hrest]
    rcases (s'.recordAddresses tk s'.settings.connectivity).subscribeOutputs tk
      (s'.recordAddresses tk s'.settings.connectivity).settings.outputs with ⟨s'', e | ⟨⟩⟩
    · rfl
    · rfl

/-- A start that succeeds puts all its settings in force. -/
theorem exists_putAll_of_start (h : (s.start tk).2 = .ok ()) :
    ∃ s', s.putAll tk (startChanges s.settings) = (s', .ok ()) ∧ (s.start tk).1 = s'.startTasks := by
  rw [start_eq_putAll] at h ⊢
  rcases hput : s.putAll tk (startChanges s.settings) with ⟨s', e | ⟨⟩⟩
  · rw [hput] at h
    cases h
  · exact ⟨s', rfl, rfl⟩

/-- Tasks are added beside the gateway. -/
theorem frame_startTasks (s : Service) :
    s.startTasks.deployment.gateway = s.deployment.gateway ∧ s.startTasks.settings = s.settings := by
  obtain ⟨hgateway, hsettings⟩ := frame_startUpload
    { s.restartSweeps s.settings.session with
      deployment := (s.restartSweeps s.settings.session).deployment.addTask .service
        (.renew renewalPeriod) } s.settings.thingName
  exact ⟨hgateway.trans ((gateway_addTask _ _ _).trans (gateway_restartSweeps s s.settings.session)),
    hsettings⟩

end Service

end DeviceAccess
