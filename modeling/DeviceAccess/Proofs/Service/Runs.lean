import DeviceAccess.Proofs.Gateway.CertificateRuns
import DeviceAccess.Proofs.Service.Changes

/-!
# Runs of a service

A running service is given new settings, time passes, and files change under it (`Service.Event`).  Of
a reload that succeeds there are two kinds: nothing differs and nothing happens, or all changes are put
in force and the settings are replaced (`Service.reload_ok_cases`).  One that fails keeps the settings,
whatever it has put in force by then (`Service.settings_reload_error`).  The settings of a service pass
the check at all times (`Service.validate_run`), and those that are read at the start only never change
(`Service.sameStart_run`).
-/

namespace DeviceAccess

/-- The settings that are read at the start only are the same. -/
structure Settings.SameStart (old new : Settings) : Prop where
  workDir : new.workDir = old.workDir
  thingName : new.thingName = old.thingName
  registry : new.registry = old.registry
  envFiles : new.envFiles = old.envFiles

theorem Settings.SameStart.refl (settings : Settings) : settings.SameStart settings :=
  ⟨rfl, rfl, rfl, rfl⟩

theorem Settings.SameStart.trans {a b c : Settings} (h : a.SameStart b) (h' : b.SameStart c) :
    a.SameStart c where
  workDir := h'.workDir.trans h.workDir
  thingName := h'.thingName.trans h.thingName
  registry := h'.registry.trans h.registry
  envFiles := h'.envFiles.trans h.envFiles

theorem Settings.sameStart_keepStartSettings (old new : Settings) :
    old.SameStart (Service.keepStartSettings old new) :=
  ⟨rfl, rfl, rfl, rfl⟩

namespace Service

/-- What happens to a running service. -/
inductive Event where
  | reload (new : Settings)
  /-- Time passes, and with it the tasks of the service go on. -/
  | pass (calendar : Int) (millis : Nat)
  /-- Somebody else changes the files. -/
  | files (f : Disk → Disk)

section
variable (tk : Toolkit)

/-- The service after an event. -/
def step (s : Service) : Event → Service
  | .reload new => (s.reload tk new).1
  | .pass calendar millis => s.pass tk calendar millis
  | .files f => s.onDisk f

/-- The service after events, one after the other. -/
def run (s : Service) (events : List Event) : Service := events.foldl (step tk) s

/-- A reload succeeds; nothing is asked of other events. -/
def Succeeds (s : Service) : Event → Prop
  | .reload new => ∃ patch, (s.reload tk new).2 = .ok patch
  | .pass _ _ | .files _ => True

/-- Something holds of each event of a run and of the service that it happens to. -/
def Throughout (P : Service → Event → Prop) (s : Service) : List Event → Prop
  | [] => True
  | event :: events => P s event ∧ Throughout P (s.step tk event) events

end

variable {tk : Toolkit} {s : Service} {new : Settings} {patch : Patch}

/-- What a reload that succeeds comes to. -/
theorem reload_ok_cases (h : (s.reload tk new).2 = .ok patch) :
    new.validate = .ok () ∧ patch = Patch.between s.settings new ∧
      ((patch.isEmpty = true ∧ (s.reload tk new).1 = s) ∨
        patch.isEmpty = false ∧ ∃ s', s.putAll tk (s.reloadChanges new) = (s', .ok ()) ∧
          (s.reload tk new).1 = { s' with settings := keepStartSettings s.settings new }) := by
  rcases reload_cases tk s new with ⟨e, -, heq⟩ | ⟨hvalid, ⟨hempty, heq⟩ | ⟨hfull, hrest⟩⟩
  · rw [heq] at h
    cases h
  · rw [heq] at h
    obtain rfl := Except.ok.inj h
    exact ⟨hvalid, rfl, .inl ⟨hempty, congrArg Prod.fst heq⟩⟩
  · rcases hrest with ⟨s', e, -, heq⟩ | ⟨s', hput, heq⟩
    · rw [heq] at h
      cases h
    · rw [heq] at h
      obtain rfl := Except.ok.inj h
      exact ⟨hvalid, rfl, .inr ⟨hfull, s', hput, congrArg Prod.fst heq⟩⟩

/-- What a reload that fails comes to: the settings are refused, or a change failed. -/
theorem reload_error_cases {e : Fault} (h : (s.reload tk new).2 = .error e) :
    (new.validate ≠ .ok () ∧ (s.reload tk new).1 = s) ∨
      new.validate = .ok () ∧ s.putAll tk (s.reloadChanges new) = ((s.reload tk new).1, .error e) := by
  rcases reload_cases tk s new with ⟨e', hinvalid, heq⟩ | ⟨hvalid, ⟨-, heq⟩ | ⟨-, hrest⟩⟩
  · refine .inl ⟨fun hvalid => ?_, congrArg Prod.fst heq⟩
    cases hinvalid.symm.trans hvalid
  · rw [heq] at h
    cases h
  · rcases hrest with ⟨s', e', hput, heq⟩ | ⟨s', -, heq⟩
    · rw [heq] at h ⊢
      obtain rfl := Except.error.inj h
      exact .inr ⟨hvalid, hput⟩
    · rw [heq] at h
      cases h

/-- A reload that fails keeps the settings. -/
theorem settings_reload_error {e : Fault} (h : (s.reload tk new).2 = .error e) :
    (s.reload tk new).1.settings = s.settings := by
  rcases reload_error_cases h with ⟨-, heq⟩ | ⟨-, hput⟩
  · rw [heq]
  · have hsettings := settings_putAll tk s (s.reloadChanges new)
    rw [hput] at hsettings
    exact hsettings

/-! ### Checked settings -/

/-- The settings of a service pass the check at all times. -/
theorem validate_step (h : s.settings.validate = .ok ()) (event : Event) :
    (s.step tk event).settings.validate = .ok () := by
  cases event with
  | reload new =>
      show (s.reload tk new).1.settings.validate = .ok ()
      cases hr : (s.reload tk new).2 with
      | error e =>
          rw [settings_reload_error hr]
          exact h
      | ok patch =>
          obtain ⟨hvalid, -, ⟨-, heq⟩ | ⟨-, s', -, heq⟩⟩ := reload_ok_cases hr
          · rw [heq]
            exact h
          · rw [heq]
            exact hvalid
  | pass calendar millis => exact h
  | files f => exact h

theorem validate_run (h : s.settings.validate = .ok ()) (events : List Event) :
    (s.run tk events).settings.validate = .ok () := by
  induction events generalizing s with
  | nil => exact h
  | cons event events ih => exact ih (validate_step h event)

/-- A start keeps the settings, also one that fails. -/
theorem settings_start (tk : Toolkit) (s : Service) : (s.start tk).1.settings = s.settings := by
  have hsettings := settings_putAll tk s (startChanges s.settings)
  rw [start_eq_putAll]
  rcases hput : s.putAll tk (startChanges s.settings) with ⟨s', e | ⟨⟩⟩
  · rw [hput] at hsettings
    exact hsettings
  · rw [hput] at hsettings
    exact (frame_startTasks s').2.trans hsettings

/-! ### Settings that only a start could change -/

/-- No event changes the settings that are read at the start only. -/
theorem sameStart_step (tk : Toolkit) (s : Service) (event : Event) :
    s.settings.SameStart (s.step tk event).settings := by
  cases event with
  | reload new =>
      show s.settings.SameStart (s.reload tk new).1.settings
      cases hr : (s.reload tk new).2 with
      | error e =>
          rw [settings_reload_error hr]
          exact .refl s.settings
      | ok patch =>
          obtain ⟨-, -, ⟨-, heq⟩ | ⟨-, s', -, heq⟩⟩ := reload_ok_cases hr
          · rw [heq]
            exact .refl s.settings
          · rw [heq]
            exact Settings.sameStart_keepStartSettings s.settings new
  | pass calendar millis => exact .refl s.settings
  | files f => exact .refl s.settings

theorem sameStart_run (tk : Toolkit) (s : Service) (events : List Event) :
    s.settings.SameStart (s.run tk events).settings := by
  induction events generalizing s with
  | nil => exact .refl s.settings
  | cons event events ih => exact (sameStart_step tk s event).trans (ih (s.step tk event))

/-! ### A service on an empty disk -/

open CertificateRun (emptyWorld)

/-- A new service of settings, on an empty disk. -/
def onEmptyDisk (settings : Settings) : Service :=
  match Service.new emptyWorld .empty 0 false settings with
  | .ok s => s
  | .error _ => ⟨.new (.new emptyWorld settings.workDir .standard) .empty 0, settings, false⟩

theorem new_onEmptyDisk (settings : Settings)
    (h : (Service.new emptyWorld .empty 0 false settings).isOk = true) :
    Service.new emptyWorld .empty 0 false settings = .ok (onEmptyDisk settings) := by
  unfold onEmptyDisk
  cases hnew : Service.new emptyWorld .empty 0 false settings with
  | ok s => rfl
  | error e =>
      rw [hnew] at h
      cases h

end Service

end DeviceAccess
