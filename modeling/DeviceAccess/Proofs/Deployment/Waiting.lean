import DeviceAccess.Deployment.Calls
import DeviceAccess.Proofs.Authority.Store

/-!
# What goes on while somebody waits

During a wait only the passes of background tasks change the gateway: the two sweeps over the sessions
and the renewal of certificates.  Whatever these three keep, a wait keeps (`Gateway.KeptByPasses.wait`),
and so does a call that is repeated, if the call itself does.  Putting an authority in force waits for
the material, if at all, and then settles the gateway once
(`Gateway.KeptByPasses.configureAuthority_cases`).
-/

namespace DeviceAccess

namespace AuthorityStore

variable {tk : Toolkit} {s : AuthorityStore} {w : World}

/-- An authority that cannot be put in force changes nothing. -/
theorem material_of_replace_error {m : AuthorityMaterial}
    (h : (s.replace w m).result ≠ .ok ()) : (s.replace w m).store.material = s.material := by
  rcases replace_cases s w m with ⟨e, -, hstore, -⟩ | ⟨hok, -⟩
  · rw [hstore]
  · exact absurd hok h

theorem material_of_install_error {key : String} {chain : List String}
    (h : (s.install tk w key chain).result ≠ .ok ()) :
    (s.install tk w key chain).store.material = s.material := by
  rcases install_cases tk s w key chain with ⟨e, heq⟩ | ⟨m, -, heq⟩
  · rw [heq]
  · rw [heq] at h ⊢
    exact material_of_replace_error h

/-- An update that fails leaves the authority in force. -/
theorem material_of_update_error {now : Int} {keyType : KeyType}
    (h : (s.update tk now w keyType).result ≠ .ok ()) :
    (s.update tk now w keyType).store.material = s.material := by
  have hready := (readyPassphrase_store s w).2
  rcases update_cases tk now s w keyType with ⟨e, heq⟩ | ⟨m, -, heq⟩ |
    ⟨-, ⟨w₂, e, -, heq⟩ | ⟨w₂, m, -, heq⟩⟩
  · rw [heq, hready]
  · rw [heq] at h ⊢
    exact (material_of_replace_error h).trans hready
  · rw [heq, hready]
  · rw [heq] at h ⊢
    exact (material_of_replace_error h).trans hready

end AuthorityStore

/-- The passes of background tasks keep a property of the gateway. -/
structure Gateway.KeptByPasses (tk : Toolkit) (P : Gateway → Prop) : Prop where
  refresh : ∀ {g : Gateway} (source : IdentitySource), P g → P (g.refresh source).1
  closeIdle : ∀ {g : Gateway} (clock timeout : Nat), P g → P (g.closeIdle clock timeout).1
  renew : ∀ {g : Gateway} (now millis : Int), P g → P (g.renew tk now millis).1

namespace Gateway.KeptByPasses

variable {tk : Toolkit} {P : Gateway → Prop} {d : Deployment}

/-! ### Tasks -/

/-- An upload concerns the registrar only. -/
theorem gateway_uploadPass (d : Deployment) (u : Upload) : (d.uploadPass u).1.gateway = d.gateway := by
  unfold Deployment.uploadPass Deployment.callRegistrar
  simp only
  split
  · rfl
  · split
    · rfl
    · rfl

theorem pass (h : KeptByPasses tk P) (hd : P d.gateway) (work : Work) :
    P (d.pass tk work).1.gateway := by
  cases work with
  | refresh period => exact h.refresh _ hd
  | closeIdle period timeout => exact h.closeIdle _ _ hd
  | renew period => exact h.renew _ _ hd
  | upload u =>
      show P (d.uploadPass u).1.gateway
      rw [gateway_uploadPass]
      exact hd

theorem carryOut (h : KeptByPasses tk P) (hd : P d.gateway) (t : Task) :
    P (d.carryOut tk t).gateway := by
  have hpass := h.pass hd t.work
  unfold Deployment.carryOut
  split
  · exact hd
  · split
    · next d' heq =>
        rw [heq] at hpass
        exact hpass
    · next d' work wait heq =>
        rw [heq] at hpass
        exact hpass

theorem passesAt (h : KeptByPasses tk P) (hd : P d.gateway) (time : Nat) :
    P (d.passesAt tk time).gateway := by
  have hfold : ∀ (tasks : List Task) (d : Deployment), P d.gateway →
      P (tasks.foldl (Deployment.carryOut tk) d).gateway := by
    intro tasks
    induction tasks with
    | nil => exact fun d hd => hd
    | cons t tasks ih => exact fun d hd => ih _ (h.carryOut hd t)
  exact hfold d.tasks { d with clock := time, tasks := [] } hd

theorem runBefore (h : KeptByPasses tk P) (target time : Nat) (hd : P d.gateway) :
    P (d.runBefore tk target time).gateway := by
  fun_induction Deployment.runBefore tk target time d with
  | case1 time d hnone => exact hd
  | case2 time d due hsome hlt ih => exact ih (h.passesAt hd _)
  | case3 time d due hsome hlt => exact hd

/-! ### Waits -/

theorem wait (h : KeptByPasses tk P) (hd : P d.gateway) (millis : Nat) :
    P (d.wait tk millis).gateway := by
  unfold Deployment.wait
  split
  · exact hd
  · exact h.runBefore _ _ hd

/-- A call is repeated after waits. -/
theorem repeatCall {α : Type} (h : KeptByPasses tk P) {policy : RetryPolicy}
    {worthRepeating : Fault → Bool} {stop : Option Nat} {call : Deployment.Call α}
    (hcall : ∀ d faults, P d.gateway → P (call d faults).1.gateway) (limit calls : Nat)
    (faults : StagedFaults) (hd : P d.gateway) :
    P (d.repeatCall tk policy worthRepeating stop call limit calls faults).1.gateway := by
  induction limit generalizing d calls faults with
  | zero =>
      have hafter := hcall d faults hd
      unfold Deployment.repeatCall
      exact hafter
  | succ limit ih =>
      have hafter := hcall d faults hd
      unfold Deployment.repeatCall
      rcases hr : call d faults with ⟨d', faults', r⟩
      rw [hr] at hafter
      simp only
      cases policy.next worthRepeating (calls + 1) r with
      | none => exact hafter
      | some delay =>
          simp only
          split
          · exact h.wait hafter _
          · exact ih _ _ (h.wait hafter _)

/-! ### Putting an authority in force -/

/-- To ask for material changes nothing. -/
theorem materialCall_fst (uris : AuthorityUris) (d : Deployment) (faults : StagedFaults) :
    (Deployment.materialCall uris d faults).1 = d := by
  unfold Deployment.materialCall
  split
  · rfl
  · rfl

theorem settle_snd (g : Gateway) (now : Int) (o : AuthorityOutcome) :
    (g.settle tk now o).2 = o.result := by
  unfold settle
  cases o.changed with
  | none => rfl
  | some chain => rfl

/-- What putting an authority in force comes to: it fails before the authority is touched, or the
gateway settles after one operation on the authority, which leaves it as it was if it fails. -/
theorem configureAuthority_cases (h : KeptByPasses tk P) (hd : P d.gateway) (faults : StagedFaults)
    (settings : AuthoritySettings) :
    let r := d.configureAuthority tk faults settings
    (P r.1.gateway ∧ ∃ e, r.2 = .error e) ∨
      ∃ g now o, P g ∧ r.1.gateway = (g.settle tk now o).1 ∧ r.2 = o.result ∧
        (o.result ≠ .ok () → o.store.material = g.authority.material) := by
  unfold Deployment.configureAuthority
  cases settings.uris with
  | error e => exact .inl ⟨hd, e, rfl⟩
  | ok uris? =>
      cases uris? with
      | none =>
          exact .inr ⟨d.gateway, d.calendar,
            d.gateway.authority.update tk d.calendar d.gateway.world settings.keyType, hd, rfl,
            settle_snd _ _ _, AuthorityStore.material_of_update_error⟩
      | some uris =>
          have hload : P (d.repeatCall tk Deployment.importPolicy Deployment.isUnavailable none
              (Deployment.materialCall uris) 3 0 faults).1.gateway :=
            h.repeatCall (fun d faults hd => (materialCall_fst uris d faults).symm ▸ hd) 3 0 faults hd
          simp only
          unfold Deployment.importAuthority
          rcases hr : d.repeatCall tk Deployment.importPolicy Deployment.isUnavailable none
            (Deployment.materialCall uris) 3 0 faults with ⟨d', e | material⟩
          · rw [hr] at hload
            exact .inl ⟨hload, e, rfl⟩
          · rw [hr] at hload
            exact .inr ⟨d'.gateway, d'.calendar,
              d'.gateway.authority.install tk d'.gateway.world material.key material.chain, hload, rfl,
              settle_snd _ _ _, AuthorityStore.material_of_install_error⟩

end Gateway.KeptByPasses

end DeviceAccess
