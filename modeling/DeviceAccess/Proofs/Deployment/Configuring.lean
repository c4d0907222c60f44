import DeviceAccess.Proofs.Authority.Files
import DeviceAccess.Proofs.Deployment.Installing

/-!
# What settings make of the authority

Settings name two files with the material of an authority, or ask for a generated one.  As long as no
failure of the provider is staged, nothing has to be asked twice: the files are read once, which fails
for good if it fails, and one operation on the authority follows
(`Deployment.configureAuthority_eq`).  What this operation comes to is a matter of the authority, the
files, the random bytes and the calendar alone (`Deployment.authorityOutcome`).

`Deployment.onFile?` is the authority that the files hold.  If there is one, it is what settings put in
force (`Deployment.material_of_onFile?`).
-/

namespace DeviceAccess

namespace KeyMaterial

variable {disk : Disk} {uri : Url} {uris : AuthorityUris} {e : Fault}

theorem isUnavailable_of_readUri (h : readUri disk uri = .error e) :
    Deployment.isUnavailable e = false := by
  unfold readUri at h
  split at h
  · obtain rfl := Except.error.inj h
    rfl
  · split at h
    · obtain rfl := Except.error.inj h
      rfl
    · split at h
      · cases h
      · obtain rfl := Except.error.inj h
        rfl
      · obtain rfl := Except.error.inj h
        rfl

/-- Material that cannot be read is no reason to ask again. -/
theorem isUnavailable_of_load (h : load disk uris = .error e) : Deployment.isUnavailable e = false := by
  unfold load at h
  rcases bind_eq_error_iff.1 h with hkey | ⟨key, -, h⟩
  · exact isUnavailable_of_readUri hkey
  rcases bind_eq_error_iff.1 h with htext | ⟨text, -, h⟩
  · exact isUnavailable_of_readUri htext
  rcases bind_eq_error_iff.1 h with hchain | ⟨chain, -, h⟩
  · obtain ⟨e', -, rfl⟩ := mapError_eq_error_iff.1 hchain
    rfl
  · cases h

end KeyMaterial

/-- Material that passes the checks is in force after an import that succeeds. -/
theorem AuthorityStore.material_install_of_checkImport {tk : Toolkit} {s : AuthorityStore} {w : World}
    {key : String} {chain : List String} {m : AuthorityMaterial}
    (h : checkImport tk key chain = .ok m) (hok : (s.install tk w key chain).result = .ok ()) :
    (s.install tk w key chain).store.material = some m := by
  rw [install_of_checkImport h] at hok ⊢
  rcases replace_cases s w m with ⟨e, herror, -⟩ | ⟨-, hstore, -⟩
  · cases hok.symm.trans herror
  · rw [hstore]

namespace Deployment

variable {tk : Toolkit} {d d' : Deployment} {settings : AuthoritySettings} {m : AuthorityMaterial}
  {o : AuthorityOutcome}

section
variable (tk : Toolkit) (d : Deployment) (settings : AuthoritySettings)

/-- The operation on the authority that settings ask for, unless its material cannot be had. -/
def authorityOutcome : Except Fault AuthorityOutcome :=
  match settings.uris with
  | .error e => .error e
  | .ok (some uris) =>
    match KeyMaterial.load d.gateway.world.disk uris with
    | .error e => .error e
    | .ok material =>
      .ok (d.gateway.authority.install tk d.gateway.world material.key material.chain)
  | .ok none => .ok (d.gateway.authority.update tk d.calendar d.gateway.world settings.keyType)

/-- The authority that is in the files that settings name, if it passes the checks. -/
def onFile? : Option AuthorityMaterial :=
  match settings.uris with
  | .error _ => none
  | .ok (some uris) =>
    match KeyMaterial.load d.gateway.world.disk uris with
    | .error _ => none
    | .ok material => (AuthorityStore.checkImport tk material.key material.chain).toOption
  | .ok none => d.gateway.authority.persisted? tk d.gateway.world.disk settings.keyType

end

/-- Without staged failures the material is asked for once. -/
theorem importAuthority_nil (tk : Toolkit) (d : Deployment) (uris : AuthorityUris) :
    d.importAuthority tk [] uris =
      match KeyMaterial.load d.gateway.world.disk uris with
      | .error e => (d, .error e)
      | .ok material => d.adopt (d.gateway.importAuthority tk d.calendar material) := by
  have hcall : d.repeatCall tk importPolicy isUnavailable none (materialCall uris) 3 0 [] =
      (d, KeyMaterial.load d.gateway.world.disk uris) := by
    unfold repeatCall materialCall StagedFaults.next
    simp only
    cases hload : KeyMaterial.load d.gateway.world.disk uris with
    | ok material => rfl
    | error e =>
        have hnext : importPolicy.next isUnavailable 1 (.error e : Except Fault KeyMaterial) = none := by
          unfold RetryPolicy.next RetryPolicy.nextBy
          simp only
          rw [KeyMaterial.isUnavailable_of_load hload]
          rfl
        simp only [Nat.zero_add, hnext]
  unfold importAuthority
  rw [hcall]
  cases KeyMaterial.load d.gateway.world.disk uris with
  | error e => rfl
  | ok material => rfl

/-- **To put an authority in force** is to settle after one operation on the authority. -/
theorem configureAuthority_eq (tk : Toolkit) (d : Deployment) (settings : AuthoritySettings) :
    d.configureAuthority tk [] settings =
      match d.authorityOutcome tk settings with
      | .error e => (d, .error e)
      | .ok o => d.adopt (d.gateway.settle tk d.calendar o) := by
  unfold configureAuthority authorityOutcome
  cases settings.uris with
  | error e => rfl
  | ok uris? =>
      cases uris? with
      | none => rfl
      | some uris =>
          simp only
          rw [importAuthority_nil]
          cases KeyMaterial.load d.gateway.world.disk uris with
          | error e => rfl
          | ok material => rfl

/-- What settings make of the authority is a matter of the authority, the world and the calendar. -/
theorem authorityOutcome_congr (hauthority : d'.gateway.authority = d.gateway.authority)
    (hworld : d'.gateway.world = d.gateway.world) (hcalendar : d'.calendar = d.calendar)
    (settings : AuthoritySettings) :
    d'.authorityOutcome tk settings = d.authorityOutcome tk settings := by
  unfold authorityOutcome
  rw [hauthority, hworld, hcalendar]

/-- The result, and the authority in force if it is a success. -/
theorem configureAuthority_eq_ok_iff :
    (d.configureAuthority tk [] settings).2 = .ok () ↔
      ∃ o, d.authorityOutcome tk settings = .ok o ∧ o.result = .ok () := by
  rw [configureAuthority_eq]
  cases d.authorityOutcome tk settings with
  | error e => simp
  | ok o =>
      have hresult : (d.adopt (d.gateway.settle tk d.calendar o)).2 = o.result :=
        Gateway.KeptByPasses.settle_snd d.gateway d.calendar o
      simp [hresult]

theorem material_configureAuthority (h : d.authorityOutcome tk settings = .ok o) :
    (d.configureAuthority tk [] settings).1.gateway.authority.material = o.store.material := by
  rw [configureAuthority_eq, h]
  exact congrArg (·.material) (Gateway.authority_settle tk d.calendar d.gateway o)

/-- **An authority on file** is the one that settings put in force. -/
theorem material_of_onFile? (hfile : d.onFile? tk settings = some m)
    (hok : (d.configureAuthority tk [] settings).2 = .ok ()) :
    (d.configureAuthority tk [] settings).1.gateway.authority.material = some m := by
  obtain ⟨o, ho, hresult⟩ := configureAuthority_eq_ok_iff.1 hok
  rw [material_configureAuthority ho]
  unfold onFile? at hfile
  unfold authorityOutcome at ho
  cases huris : settings.uris with
  | error e =>
      rw [huris] at hfile
      cases hfile
  | ok uris? =>
      rw [huris] at hfile ho
      cases uris? with
      | none =>
          obtain rfl := Except.ok.inj ho
          exact AuthorityStore.material_update_of_persisted? hfile hresult
      | some uris =>
          simp only at hfile ho
          cases hload : KeyMaterial.load d.gateway.world.disk uris with
          | error e =>
              rw [hload] at hfile
              cases hfile
          | ok material =>
              rw [hload] at hfile ho
              obtain rfl := Except.ok.inj ho
              refine AuthorityStore.material_install_of_checkImport ?_ hresult
              cases hcheck : AuthorityStore.checkImport tk material.key material.chain with
              | error e =>
                  simp only [hcheck] at hfile
                  cases hfile
              | ok m' =>
                  simp only [hcheck] at hfile
                  exact congrArg Except.ok (Option.some.inj hfile)

end Deployment

end DeviceAccess
