import DeviceAccess.Authority.Store
import DeviceAccess.Proofs.Attempt

/-!
# Operations on the authority

What each operation on the authority can do to the store, in one lemma for each: an operation that
fails leaves the authority in force, and one that succeeds puts in force what it checked, generated or
took up from disk.
-/

namespace DeviceAccess

namespace AuthorityStore

variable {tk : Toolkit} {s : AuthorityStore} {w : World}

/-- Putting an authority in force fails as a whole or succeeds; the chain counts as changed if it is
not the one before. -/
theorem replace_cases (s : AuthorityStore) (w : World) (m : AuthorityMaterial) :
    (∃ e, (s.replace w m).result = .error e ∧ (s.replace w m).store = s ∧
        (s.replace w m).changed = none) ∨
      ((s.replace w m).result = .ok () ∧ (s.replace w m).store = { s with material := some m } ∧
        (s.replace w m).changed =
          if s.material.map (·.chain) = some m.chain then none else some m.chain) := by
  unfold replace
  split
  · next e _ => exact .inl ⟨e, rfl, rfl, rfl⟩
  · split
    · next e _ => exact .inl ⟨e, rfl, rfl, rfl⟩
    · exact .inr ⟨rfl, rfl, rfl⟩

/-! ### Imports -/

/-- Imported material passes the checks if the key can be used, every certificate can be read, and
the key is the one of the first certificate. -/
theorem checkImport_eq_ok_iff {key : String} {chain : List String} {m : AuthorityMaterial} :
    checkImport tk key chain = .ok m ↔
      chain = m.chain ∧ key = m.key ∧ (∃ keyType, tk.keyType key = .ok keyType) ∧
        (∀ text ∈ chain, ∃ certificates, tk.chain text = .ok certificates) ∧
        tk.certifiedBy key m.signing = .ok true := by
  cases chain with
  | nil =>
      refine ⟨nofun, fun h => ?_⟩
      cases h.1
  | cons signing others =>
      have hcheck : ∀ u : PUnit, (forIn (signing :: others) PUnit.unit fun text _ => do
          let _ ← (tk.chain text).mapError fun e => Fault.keyStore e.message
          pure (ForInStep.yield PUnit.unit)) = (.ok u : Except Fault PUnit) ↔
          ∀ text ∈ signing :: others, ∃ certificates, tk.chain text = .ok certificates := by
        intro u
        have h := forIn_check_eq_ok_iff
          (fun text => (tk.chain text).mapError fun e => Fault.keyStore e.message) (signing :: others)
        simp only [mapError_eq_ok_iff] at h
        exact h
      unfold checkImport
      simp only [bind_eq_ok_iff, hcheck]
      constructor
      · rintro ⟨keyType, hkey, -, hread, matched, hmatched, hm⟩
        cases matched with
        | false => cases hm
        | true =>
            obtain rfl := Except.ok.inj hm
            exact ⟨rfl, rfl, ⟨keyType, hkey⟩, hread, hmatched⟩
      · rintro ⟨hchain, rfl, ⟨keyType, hkey⟩, hread, hmatched⟩
        obtain ⟨rfl, rfl⟩ := List.cons.inj hchain
        exact ⟨keyType, hkey, PUnit.unit, hread, true, hmatched, rfl⟩

theorem install_of_checkImport {key : String} {chain : List String} {m : AuthorityMaterial}
    (h : checkImport tk key chain = .ok m) (s : AuthorityStore) (w : World) :
    s.install tk w key chain = s.replace w m := by
  unfold install
  rw [h]

theorem install_cases (tk : Toolkit) (s : AuthorityStore) (w : World) (key : String)
    (chain : List String) :
    (∃ e, s.install tk w key chain = ⟨s, w, none, .error e⟩) ∨
      ∃ m, checkImport tk key chain = .ok m ∧ s.install tk w key chain = s.replace w m := by
  cases hcheck : checkImport tk key chain with
  | error e =>
      refine .inl ⟨e, ?_⟩
      unfold install
      rw [hcheck]
  | ok m => exact .inr ⟨m, rfl, install_of_checkImport hcheck s w⟩

/-! ### Generated authorities -/

/-- Getting the passphrase ready concerns nothing of a store but the passphrase. -/
theorem readyPassphrase_store (s : AuthorityStore) (w : World) :
    (s.readyPassphrase w).1.workDir = s.workDir ∧
      (s.readyPassphrase w).1.material = s.material := by
  unfold readyPassphrase
  split
  · exact ⟨rfl, rfl⟩
  · simp only
    split
    · exact ⟨rfl, rfl⟩
    · split
      · exact ⟨rfl, rfl⟩
      · split
        · exact ⟨rfl, rfl⟩
        · exact ⟨rfl, rfl⟩

/-- An update fails for want of a passphrase, takes up the authority on disk, fails to generate one,
or generates one. -/
theorem update_cases (tk : Toolkit) (now : Int) (s : AuthorityStore) (w : World)
    (keyType : KeyType) :
    let ready := (s.readyPassphrase w).1
    let w₁ := (s.readyPassphrase w).2.1
    (∃ e, s.update tk now w keyType = ⟨ready, w₁, none, .error e⟩) ∨
      (∃ m, ready.persisted? tk w₁.disk keyType = some m ∧
        s.update tk now w keyType = ready.replace w₁ m) ∨
      ready.persisted? tk w₁.disk keyType = none ∧
        ((∃ w₂ e, ready.generate tk now w₁ keyType = (w₂, .error e) ∧
            s.update tk now w keyType = ⟨ready, w₂, none, .error e⟩) ∨
          ∃ w₂ m, ready.generate tk now w₁ keyType = (w₂, .ok m) ∧
            s.update tk now w keyType = ready.replace w₂ m) := by
  unfold update
  rcases hready : s.readyPassphrase w with ⟨ready, w₁, e | passphrase⟩
  · exact .inl ⟨e, rfl⟩
  · refine .inr ?_
    simp only
    cases hpersisted : ready.persisted? tk w₁.disk keyType with
    | some m => exact .inl ⟨m, rfl, rfl⟩
    | none =>
        refine .inr ⟨rfl, ?_⟩
        rcases hgenerate : ready.generate tk now w₁ keyType with ⟨w₂, e | m⟩
        · exact .inl ⟨w₂, e, rfl, rfl⟩
        · exact .inr ⟨w₂, m, rfl, rfl⟩

/-- A generated authority is the one that was drawn. -/
theorem material_of_generate {now : Int} {keyType : KeyType} {w' : World} {m : AuthorityMaterial}
    (h : s.generate tk now w keyType = (w', .ok m)) :
    ∃ issued entropy,
      (tk.newAuthority commonName keyType validity now).run w.entropy = (.ok issued, entropy) ∧
        m = ⟨issued.key, issued.certificate, []⟩ := by
  unfold generate World.draw at h
  rcases hdraw : (tk.newAuthority commonName keyType validity now).run w.entropy with
    ⟨e | issued, entropy⟩
  · rw [hdraw] at h
    cases h
  · rw [hdraw] at h
    refine ⟨issued, entropy, rfl, ?_⟩
    simp only at h
    split at h
    · cases h
    · split at h
      · cases h
      · split at h
        · cases h
        · obtain ⟨-, hm⟩ := Prod.mk.inj h
          exact (Except.ok.inj hm).symm

/-- What counts as an authority on disk: the texts of the two files, if the key has the algorithm and
the certificate can be read.  Whether the two belong together does not matter. -/
theorem persisted?_eq_some_iff {disk : Disk} {keyType : KeyType} {m : AuthorityMaterial} :
    s.persisted? tk disk keyType = some m ↔
      disk.readText s.keyFile = .ok m.key ∧ disk.readText s.certificateFile = .ok m.signing ∧
        m.others = [] ∧ tk.keyType m.key = .ok (some keyType) ∧
        ∃ certificates, tk.chain m.signing = .ok certificates := by
  constructor
  · intro h
    unfold persisted? at h
    split at h
    · next hkey hcertificate =>
        split at h
        · next found certificates hfound hchain =>
            split at h
            · next heq =>
                obtain rfl := Option.some.inj h
                exact ⟨hkey, hcertificate, rfl, heq ▸ hfound, _, hchain⟩
            · cases h
        · cases h
    · cases h
  · obtain ⟨key, signing, others⟩ := m
    rintro ⟨hkey, hcertificate, rfl, hfound, certificates, hchain⟩
    unfold persisted?
    simp only at hkey hcertificate hfound hchain
    simp only [hkey, hcertificate, hfound, hchain, if_true]

/-- An update that succeeds leaves an authority in force whose chain is one certificate. -/
theorem chain_of_update {now : Int} {keyType : KeyType}
    (h : (s.update tk now w keyType).result = .ok ()) :
    ∃ certificate, (s.update tk now w keyType).store.chain = [certificate] := by
  have hreplace : ∀ {ready : AuthorityStore} {w' : World} {m : AuthorityMaterial}, m.others = [] →
      s.update tk now w keyType = ready.replace w' m →
      ∃ certificate, (s.update tk now w keyType).store.chain = [certificate] := by
    intro ready w' m hothers heq
    rw [heq] at h ⊢
    rcases replace_cases ready w' m with ⟨e, herror, -⟩ | ⟨-, hstore, -⟩
    · rw [h] at herror
      cases herror
    · refine ⟨m.signing, ?_⟩
      rw [hstore, ← hothers]
      rfl
  rcases update_cases tk now s w keyType with ⟨e, heq⟩ | ⟨m, hpersisted, heq⟩ | ⟨-, hgenerate⟩
  · rw [heq] at h
    cases h
  · exact hreplace (persisted?_eq_some_iff.1 hpersisted).2.2.1 heq
  · rcases hgenerate with ⟨w₂, e, -, heq⟩ | ⟨w₂, m, hgenerate, heq⟩
    · rw [heq] at h
      cases h
    · obtain ⟨issued, entropy, -, rfl⟩ := material_of_generate hgenerate
      exact hreplace rfl heq

/-- An import that succeeds puts its chain in force, of which every certificate can be read. -/
theorem chain_of_install {key : String} {chain : List String}
    (h : (s.install tk w key chain).result = .ok ()) :
    (s.install tk w key chain).store.chain = chain ∧
      ∀ text ∈ chain, ∃ certificates, tk.chain text = .ok certificates := by
  rcases install_cases tk s w key chain with ⟨e, heq⟩ | ⟨m, hcheck, heq⟩
  · rw [heq] at h
    cases h
  · obtain ⟨hchain, -, -, hread, -⟩ := checkImport_eq_ok_iff.1 hcheck
    refine ⟨?_, hread⟩
    rw [heq] at h ⊢
    rcases replace_cases s w m with ⟨e, herror, -⟩ | ⟨-, hstore, -⟩
    · rw [h] at herror
      cases herror
    · rw [hstore, hchain]
      rfl

/-! ### When the chain changes -/

theorem chain_of_material {s : AuthorityStore} {m : AuthorityMaterial} (h : s.material = some m) :
    s.chain = m.chain := by
  unfold chain
  rw [h]

theorem isReady_iff_chain_ne_nil {s : AuthorityStore} : s.isReady = true ↔ s.chain ≠ [] := by
  unfold isReady chain
  cases s.material with
  | none => simp
  | some m => simp [AuthorityMaterial.chain]

/-- Putting an authority in force reports its chain exactly if another one was in force before. -/
theorem changed_replace_iff (s : AuthorityStore) (w : World) (m : AuthorityMaterial) :
    (s.replace w m).changed ≠ none ↔ (s.replace w m).store.chain ≠ s.chain := by
  rcases replace_cases s w m with ⟨e, -, hstore, hchanged⟩ | ⟨-, hstore, hchanged⟩
  · rw [hstore, hchanged]
    exact iff_of_false (fun h => h rfl) (fun h => h rfl)
  · have hnew : (s.replace w m).store.chain = m.chain := by
      rw [hstore]
      rfl
    have hsame : s.material.map (·.chain) = some m.chain ↔ m.chain = s.chain := by
      unfold chain
      cases s.material with
      | none => simp [AuthorityMaterial.chain]
      | some m₀ => simp [eq_comm]
    rw [hnew, hchanged]
    split
    · next h => exact iff_of_false (fun h' => h' rfl) (fun h' => h' (hsame.1 h))
    · next h => exact iff_of_true nofun (fun h' => h (hsame.2 h'))

theorem changed_install_iff (tk : Toolkit) (s : AuthorityStore) (w : World) (key : String)
    (chain : List String) :
    (s.install tk w key chain).changed ≠ none ↔ (s.install tk w key chain).store.chain ≠ s.chain := by
  rcases install_cases tk s w key chain with ⟨e, heq⟩ | ⟨m, -, heq⟩
  · rw [heq]
    exact iff_of_false (fun h => h rfl) (fun h => h rfl)
  · rw [heq]
    exact changed_replace_iff s w m

theorem changed_update_iff (tk : Toolkit) (now : Int) (s : AuthorityStore) (w : World)
    (keyType : KeyType) :
    (s.update tk now w keyType).changed ≠ none ↔
      (s.update tk now w keyType).store.chain ≠ s.chain := by
  have hready : (s.readyPassphrase w).1.chain = s.chain := by
    unfold chain
    rw [(readyPassphrase_store s w).2]
  rcases update_cases tk now s w keyType with ⟨e, heq⟩ | ⟨m, -, heq⟩ |
    ⟨-, ⟨w₂, e, -, heq⟩ | ⟨w₂, m, -, heq⟩⟩
  · rw [heq]
    exact iff_of_false (fun h => h rfl) (fun h => h hready)
  · rw [heq, ← hready]
    exact changed_replace_iff _ _ m
  · rw [heq]
    exact iff_of_false (fun h => h rfl) (fun h => h hready)
  · rw [heq, ← hready]
    exact changed_replace_iff _ _ m

/-- An operation that changes the chain succeeds. -/
theorem result_of_changed_replace {m : AuthorityMaterial} (h : (s.replace w m).changed ≠ none) :
    (s.replace w m).result = .ok () := by
  rcases replace_cases s w m with ⟨e, -, -, hchanged⟩ | ⟨hresult, -⟩
  · exact absurd hchanged h
  · exact hresult

theorem result_of_changed_install {key : String} {chain : List String}
    (h : (s.install tk w key chain).changed ≠ none) :
    (s.install tk w key chain).result = .ok () := by
  rcases install_cases tk s w key chain with ⟨e, heq⟩ | ⟨m, -, heq⟩
  · rw [heq] at h
    exact absurd rfl h
  · rw [heq] at h ⊢
    exact result_of_changed_replace h

theorem result_of_changed_update {now : Int} {keyType : KeyType}
    (h : (s.update tk now w keyType).changed ≠ none) :
    (s.update tk now w keyType).result = .ok () := by
  rcases update_cases tk now s w keyType with ⟨e, heq⟩ | ⟨m, -, heq⟩ |
    ⟨-, ⟨w₂, e, -, heq⟩ | ⟨w₂, m, -, heq⟩⟩
  · rw [heq] at h
    exact absurd rfl h
  · rw [heq] at h ⊢
    exact result_of_changed_replace h
  · rw [heq] at h
    exact absurd rfl h
  · rw [heq] at h ⊢
    exact result_of_changed_replace h

/-! ### An authority stays -/

theorem isReady_replace (h : s.isReady = true) (w : World) (m : AuthorityMaterial) :
    (s.replace w m).store.isReady = true := by
  rcases replace_cases s w m with ⟨e, -, hstore, -⟩ | ⟨-, hstore, -⟩
  · rw [hstore]
    exact h
  · rw [hstore]
    rfl

theorem isReady_install (h : s.isReady = true) (tk : Toolkit) (w : World) (key : String)
    (chain : List String) : (s.install tk w key chain).store.isReady = true := by
  rcases install_cases tk s w key chain with ⟨e, heq⟩ | ⟨m, -, heq⟩
  · rw [heq]
    exact h
  · rw [heq]
    exact isReady_replace h w m

theorem isReady_update (h : s.isReady = true) (tk : Toolkit) (now : Int) (w : World)
    (keyType : KeyType) : (s.update tk now w keyType).store.isReady = true := by
  have hready : (s.readyPassphrase w).1.isReady = true := by
    unfold isReady
    rw [(readyPassphrase_store s w).2]
    exact h
  rcases update_cases tk now s w keyType with ⟨e, heq⟩ | ⟨m, -, heq⟩ |
    ⟨-, ⟨w₂, e, -, heq⟩ | ⟨w₂, m, -, heq⟩⟩
  · rw [heq]
    exact hready
  · rw [heq]
    exact isReady_replace hready _ m
  · rw [heq]
    exact hready
  · rw [heq]
    exact isReady_replace hready _ m

end AuthorityStore

end DeviceAccess
