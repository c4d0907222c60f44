import Mathlib.Data.Finset.SDiff
import DeviceAccess.Proofs.Service.Selective

/-!
# What a patch says about two settings

Settings are the same if they agree field by field, with paths that name the same places
(`Settings.same`).  A patch compares the outputs as sets, so it cannot see their order and how often each
of them is listed; everything else it sees.  It is empty exactly between settings that are the same but
for this (`Settings.alike_iff`).

What is added on the way from old settings to new ones is removed on the way back, and a section or a
start setting that differs does so in both directions (`Patch.between_comm`).
-/

namespace DeviceAccess

/-! ### The same settings -/

/-- Whether two settings are the same, field by field. -/
def Settings.same (a b : Settings) : Bool :=
  a.envFiles = b.envFiles && a.workDir.same b.workDir && a.thingName = b.thingName &&
    a.session = b.session && a.authority = b.authority && a.certificates = b.certificates &&
    a.groups = b.groups && a.connectivity = b.connectivity && a.registry.same b.registry &&
    sameEntries CertificateOutput.same a.outputs b.outputs

/-- The outputs of a list as a set; outputs that mean the same are one element
(`CertificateOutput.same_iff`). -/
def outputSet (outputs : List CertificateOutput) : Finset (SubscriptionKey × Place) :=
  (outputs.map CertificateOutput.entry).toFinset

/-- The same settings but for the order of the outputs and how often each is listed. -/
def Settings.SameButForOrder (old new : Settings) : Prop :=
  { old with outputs := new.outputs }.same new = true ∧ outputSet old.outputs = outputSet new.outputs

/-- Settings that differ in nothing that a patch could tell are the same but for the order of the
outputs. -/
theorem Settings.alike_iff {old new : Settings} : old.Alike new ↔ old.SameButForOrder new := by
  have hself : sameEntries CertificateOutput.same new.outputs new.outputs = true :=
    sameEntries_self CertificateOutput.same_self new.outputs
  have hset : outputSet old.outputs = outputSet new.outputs ↔
      ∀ e, e ∈ new.entries ↔ e ∈ old.entries := by
    unfold outputSet entries
    rw [Finset.ext_iff]
    simp only [List.mem_toFinset, iff_comm]
  unfold SameButForOrder same
  rw [hset]
  simp only [hself, Bool.and_eq_true, decide_eq_true_eq, and_true]
  constructor
  · intro h
    exact ⟨⟨⟨⟨⟨⟨⟨⟨⟨h.envFiles, h.workDir⟩, h.thingName⟩, h.session⟩, h.authority⟩, h.certificates⟩,
      h.groups⟩, h.connectivity⟩, h.registry⟩, h.outputs⟩
  · rintro ⟨⟨⟨⟨⟨⟨⟨⟨⟨hfiles, hdir⟩, hthing⟩, hsession⟩, hauthority⟩, hcertificates⟩, hgroups⟩,
      hconnectivity⟩, hregistry⟩, houtputs⟩
    exact
      { groups := hgroups
        session := hsession
        certificates := hcertificates
        authority := hauthority
        connectivity := hconnectivity
        outputs := houtputs
        workDir := hdir
        thingName := hthing
        registry := hregistry
        envFiles := hfiles }

/-! ### The way back -/

theorem Path.same_comm (p q : Path) : p.same q = q.same p :=
  decide_eq_decide.2 eq_comm

theorem sameEntries_comm {α : Type} {same : α → α → Bool} (h : ∀ a b, same a b = same b a)
    (as bs : List α) : sameEntries same as bs = sameEntries same bs as := by
  induction as generalizing bs with
  | nil =>
      cases bs with
      | nil => rfl
      | cons b bs => rfl
  | cons a as ih =>
      cases bs with
      | nil => rfl
      | cons b bs =>
          unfold sameEntries
          rw [h, ih]

theorem RegistrySettings.same_comm (a b : RegistrySettings) : a.same b = b.same a := by
  refine sameEntries_comm (fun c c' => ?_) a.certificates b.certificates
  unfold RegisteredCertificate.same
  rw [Path.same_comm, decide_eq_decide.2 (eq_comm (a := c.id)),
    decide_eq_decide.2 (eq_comm (a := c.things))]

namespace Patch

/-- The patch of the way back. -/
def reversed (p : Patch) : Patch := { p with added := p.removed, removed := p.added }

/-- On the way back the outputs change their parts, and all else stays. -/
theorem between_comm (old new : Settings) : between new old = (between old new).reversed := by
  unfold between reversed
  simp only [ne_comm (a := new.groups), ne_comm (a := new.session), ne_comm (a := new.certificates),
    ne_comm (a := new.authority), ne_comm (a := new.connectivity), ne_comm (a := new.thingName),
    ne_comm (a := new.envFiles), Path.same_comm new.workDir, RegistrySettings.same_comm new.registry]

/-! ### The way there -/

theorem outputSet_filter_listed (outputs others : List CertificateOutput) :
    outputSet (outputs.filter fun o => !listed others o) = outputSet outputs \ outputSet others := by
  unfold outputSet
  rw [map_entry_filter]
  ext e
  simp only [List.mem_toFinset, List.mem_filter, Finset.mem_sdiff, decide_eq_true_eq]

/-- **A patch tells settings apart, and leads from one to the other.**

* It is empty exactly between settings that are the same but for the order of the outputs and how often
  each is listed.
* With old and new settings exchanged, the added and the removed outputs are exchanged, and everything
  else in the patch is the same.
* The old outputs without the removed ones and with the added ones are the new outputs, as sets. -/
theorem between_tells_apart (old new : Settings) :
    ((between old new).isEmpty = true ↔ old.SameButForOrder new) ∧
      between new old = (between old new).reversed ∧
      outputSet old.outputs \ outputSet (between old new).removed ∪
        outputSet (between old new).added = outputSet new.outputs := by
  refine ⟨isEmpty_between_iff.trans Settings.alike_iff, between_comm old new, ?_⟩
  have hremoved : outputSet (between old new).removed = outputSet old.outputs \ outputSet new.outputs :=
    outputSet_filter_listed old.outputs new.outputs
  have hadded : outputSet (between old new).added = outputSet new.outputs \ outputSet old.outputs :=
    outputSet_filter_listed new.outputs old.outputs
  rw [hremoved, hadded, Finset.sdiff_sdiff_self_left, Finset.inter_comm]
  exact sup_inf_sdiff (outputSet new.outputs) (outputSet old.outputs)

end Patch

end DeviceAccess
