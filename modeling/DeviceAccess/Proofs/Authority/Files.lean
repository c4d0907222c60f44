import DeviceAccess.Proofs.Authority.Store
import DeviceAccess.Proofs.Disk.Write

/-!
# The files of the authority

A generated authority is on disk as a pair of files, one for its key and one for its certificate.  Only
generating an authority changes the pair: if it succeeds, the pair is the generated one
(`AuthorityStore.readText_generate`), and if it fails, the certificate is the one from before
(`AuthorityStore.readText_certificateFile_of_generate_error`).
-/

namespace DeviceAccess

theorem World.disk_of_draw {α : Type} {w w' : World} {f : StateM Entropy α} {a : α}
    (h : w.draw f = (w', a)) : w'.disk = w.disk :=
  congrArg (fun o => o.1.disk) h.symm

theorem World.disk_of_onDisk {α : Type} {w w' : World} {f : Disk → Disk × Except DiskFault α}
    {r : Except Fault α} (h : w.onDisk f = (w', r)) : w'.disk = (f w.disk).1 :=
  congrArg (fun o => o.1.disk) h.symm

theorem World.ok_of_onDisk {α : Type} {w w' : World} {f : Disk → Disk × Except DiskFault α} {a : α}
    (h : w.onDisk f = (w', .ok a)) : (f w.disk).2 = .ok a :=
  mapError_eq_ok_iff.1 (congrArg Prod.snd h)

theorem World.error_of_onDisk {α : Type} {w w' : World} {f : Disk → Disk × Except DiskFault α}
    {e : Fault} (h : w.onDisk f = (w', .error e)) : ∃ e', (f w.disk).2 = .error e' := by
  cases hresult : (f w.disk).2 with
  | error e' => exact ⟨e', rfl⟩
  | ok a =>
      have hfile : fileResult (f w.disk).2 = .error e := congrArg Prod.snd h
      rw [hresult] at hfile
      cases hfile

namespace AuthorityStore

variable {tk : Toolkit} {s : AuthorityStore} {d d' : Disk} {w : World}

/-! ### Places -/

theorem resolve_directory (d : Disk) (s : AuthorityStore) :
    d.resolve s.directory = d.resolve s.workDir ++ ["ca"] :=
  d.resolve_join s.workDir ⟨by decide, by decide, by decide, by decide⟩

theorem resolve_join_directory (d : Disk) (s : AuthorityStore) {name : String}
    (h : Path.IsPlain name) :
    d.resolve (s.directory.join name) = d.resolve s.workDir ++ ["ca", name] := by
  rw [d.resolve_join _ h, resolve_directory, List.append_assoc]
  rfl

theorem resolve_keyFile (d : Disk) (s : AuthorityStore) :
    d.resolve s.keyFile = d.resolve s.workDir ++ ["ca", "ca.key"] :=
  resolve_join_directory d s ⟨by decide, by decide, by decide, by decide⟩

theorem resolve_certificateFile (d : Disk) (s : AuthorityStore) :
    d.resolve s.certificateFile = d.resolve s.workDir ++ ["ca", "ca.crt"] :=
  resolve_join_directory d s ⟨by decide, by decide, by decide, by decide⟩

theorem resolve_passphraseFile (d : Disk) (s : AuthorityStore) :
    d.resolve s.passphraseFile = d.resolve s.workDir ++ ["ca", "passphrase"] :=
  resolve_join_directory d s ⟨by decide, by decide, by decide, by decide⟩

theorem resolve_publicFile (d : Disk) (s : AuthorityStore) :
    d.resolve s.publicFile = d.resolve s.workDir ++ ["ca.pem"] :=
  d.resolve_join s.workDir ⟨by decide, by decide, by decide, by decide⟩

theorem keyFile_congr {s' : AuthorityStore} (h : s'.workDir = s.workDir) :
    s'.keyFile = s.keyFile := by
  unfold keyFile directory
  rw [h]

theorem certificateFile_congr {s' : AuthorityStore} (h : s'.workDir = s.workDir) :
    s'.certificateFile = s.certificateFile := by
  unfold certificateFile directory
  rw [h]

/-! ### The pair of files -/

/-- The key and the certificate on disk have the same texts. -/
structure SamePair (s : AuthorityStore) (d d' : Disk) : Prop where
  key : ∀ text, d'.readText s.keyFile = .ok text ↔ d.readText s.keyFile = .ok text
  certificate : ∀ text,
    d'.readText s.certificateFile = .ok text ↔ d.readText s.certificateFile = .ok text

theorem SamePair.refl (s : AuthorityStore) (d : Disk) : s.SamePair d d :=
  ⟨fun _ => Iff.rfl, fun _ => Iff.rfl⟩

theorem SamePair.trans {d'' : Disk} (h : s.SamePair d d') (h' : s.SamePair d' d'') :
    s.SamePair d d'' :=
  ⟨fun text => (h'.key text).trans (h.key text),
    fun text => (h'.certificate text).trans (h.certificate text)⟩

theorem SamePair.of_sameFiles (h : Disk.SameFiles d d') : s.SamePair d d' :=
  ⟨fun _ => h.readText, fun _ => h.readText⟩

/-- A write elsewhere keeps the pair. -/
theorem SamePair.of_write {p : Path} (hkey : d.resolve p ≠ d.resolve s.keyFile)
    (hcertificate : d.resolve p ≠ d.resolve s.certificateFile) (content : FileContent) (mode : Nat)
    (force : Bool) : s.SamePair d (d.write p content mode force).1 :=
  ⟨fun _ => Disk.readText_write_of_ne hkey, fun _ => Disk.readText_write_of_ne hcertificate⟩

theorem samePair_makeDirectories {p : Path} {w' : World} {r : Except Fault Unit}
    (h : (w.onDisk fun d => d.makeDirectories p) = (w', r)) : s.SamePair w.disk w'.disk := by
  rw [World.disk_of_onDisk h]
  exact .of_sameFiles (Disk.sameFiles_makeDirectories w.disk p)

theorem samePair_readyPassphrase (s : AuthorityStore) (w : World) :
    s.SamePair w.disk (s.readyPassphrase w).2.1.disk := by
  have hwrite : ∀ {w₁ w₂ : World} {passphrase : String} {r : Except Fault Unit},
      (w₁.onDisk fun d => d.writePrivate s.passphraseFile passphrase) = (w₂, r) →
      s.SamePair w₁.disk w₂.disk := by
    intro w₁ w₂ passphrase r h
    rw [World.disk_of_onDisk h]
    refine .of_write ?_ ?_ _ _ _
    · rw [resolve_passphraseFile, resolve_keyFile]
      simp
    · rw [resolve_passphraseFile, resolve_certificateFile]
      simp
  unfold readyPassphrase
  split
  · exact SamePair.refl s w.disk
  · simp only
    split
    · exact SamePair.refl s w.disk
    · -- drawing the passphrase leaves the disk alone
      show s.SamePair (w.draw newPassphrase).1.disk _
      split
      · next hmake => exact samePair_makeDirectories hmake
      · next hmake =>
          split
          · next h => exact (samePair_makeDirectories hmake).trans (hwrite h)
          · next h => exact (samePair_makeDirectories hmake).trans (hwrite h)

theorem samePair_replace (s : AuthorityStore) (w : World) (m : AuthorityMaterial) :
    s.SamePair w.disk (s.replace w m).world.disk := by
  have hwrite : ∀ {w₁ w₂ : World} {r : Except Fault Unit},
      (w₁.onDisk fun d => d.writeText s.publicFile m.signing) = (w₂, r) →
      s.SamePair w₁.disk w₂.disk := by
    intro w₁ w₂ r h
    rw [World.disk_of_onDisk h]
    refine .of_write ?_ ?_ _ _ _
    · rw [resolve_publicFile, resolve_keyFile]
      simp
    · rw [resolve_publicFile, resolve_certificateFile]
      simp
  unfold replace
  split
  · next hmake => exact samePair_makeDirectories hmake
  · next hmake =>
      split
      · next h => exact (samePair_makeDirectories hmake).trans (hwrite h)
      · next h => exact (samePair_makeDirectories hmake).trans (hwrite h)

/-! ### Generating -/

variable {now : Int} {keyType : KeyType} {w' : World}

/-- Writing the key keeps the certificate, and the other way round. -/
theorem resolve_keyFile_ne (d : Disk) (s : AuthorityStore) :
    d.resolve s.keyFile ≠ d.resolve s.certificateFile := by
  rw [resolve_keyFile, resolve_certificateFile]
  simp

/-- The pair on disk is the generated one. -/
theorem readText_generate {m : AuthorityMaterial}
    (h : s.generate tk now w keyType = (w', .ok m)) :
    w'.disk.readText s.keyFile = .ok m.key ∧ w'.disk.readText s.certificateFile = .ok m.signing := by
  unfold generate at h
  split at h
  · cases h
  · split at h
    · cases h
    · split at h
      · cases h
      · next hkey =>
          split at h
          · cases h
          · next hcertificate =>
              obtain ⟨rfl, hm⟩ := Prod.mk.inj h
              obtain rfl := Except.ok.inj hm
              have hwritten := Disk.readText_write (World.ok_of_onDisk hkey)
              rw [World.disk_of_onDisk hcertificate]
              refine ⟨(Disk.readText_write_of_ne (resolve_keyFile_ne _ s).symm).2 ?_,
                Disk.readText_write (World.ok_of_onDisk hcertificate)⟩
              rw [World.disk_of_onDisk hkey]
              exact hwritten

/-- If generating fails, the certificate on disk is the one from before. -/
theorem readText_certificateFile_of_generate_error {e : Fault}
    (h : s.generate tk now w keyType = (w', .error e)) (text : String) :
    w'.disk.readText s.certificateFile = .ok text ↔
      w.disk.readText s.certificateFile = .ok text := by
  unfold generate at h
  split at h
  · next hdraw =>
      obtain ⟨rfl, -⟩ := Prod.mk.inj h
      rw [World.disk_of_draw hdraw]
  · next hdraw =>
      rw [← World.disk_of_draw hdraw]
      split at h
      · next hmake =>
          obtain ⟨rfl, -⟩ := Prod.mk.inj h
          exact (samePair_makeDirectories hmake).certificate text
      · next hmake =>
          rw [← (samePair_makeDirectories hmake).certificate text]
          split at h
          · next hkey =>
              obtain ⟨rfl, -⟩ := Prod.mk.inj h
              rw [World.disk_of_onDisk hkey]
              exact Disk.readText_write_of_ne (resolve_keyFile_ne _ s)
          · next hkey =>
              split at h
              · next hcertificate =>
                  obtain ⟨rfl, -⟩ := Prod.mk.inj h
                  obtain ⟨e', herror⟩ := World.error_of_onDisk hcertificate
                  rw [World.disk_of_onDisk hcertificate]
                  refine (Disk.sameFiles_write_of_error herror).readText.trans ?_
                  rw [World.disk_of_onDisk hkey]
                  exact Disk.readText_write_of_ne (resolve_keyFile_ne _ s)
              · cases h

/-! ### Updates and imports as a whole -/

theorem workDir_replace (s : AuthorityStore) (w : World) (m : AuthorityMaterial) :
    (s.replace w m).store.workDir = s.workDir := by
  rcases replace_cases s w m with ⟨e, -, hstore, -⟩ | ⟨-, hstore, -⟩
  · rw [hstore]
  · rw [hstore]

theorem material_of_replace {m m' : AuthorityMaterial}
    (h : (s.replace w m).store.material = some m') :
    s.material = some m' ∨ ((s.replace w m).result = .ok () ∧ m' = m) := by
  rcases replace_cases s w m with ⟨e, -, hstore, -⟩ | ⟨hok, hstore, -⟩
  · rw [hstore] at h
    exact .inl h
  · rw [hstore] at h
    exact .inr ⟨hok, (Option.some.inj h).symm⟩

theorem workDir_install (tk : Toolkit) (s : AuthorityStore) (w : World) (key : String)
    (chain : List String) : (s.install tk w key chain).store.workDir = s.workDir := by
  rcases install_cases tk s w key chain with ⟨e, heq⟩ | ⟨m, -, heq⟩
  · rw [heq]
  · rw [heq, workDir_replace]

/-- What an import puts in force passed the checks. -/
theorem material_of_install {key : String} {chain : List String} {m : AuthorityMaterial}
    (h : (s.install tk w key chain).store.material = some m) :
    s.material = some m ∨ tk.certifiedBy m.key m.signing = .ok true := by
  rcases install_cases tk s w key chain with ⟨e, heq⟩ | ⟨m', hcheck, heq⟩
  · rw [heq] at h
    exact .inl h
  · rw [heq] at h
    rcases material_of_replace h with hbefore | ⟨-, rfl⟩
    · exact .inl hbefore
    · obtain ⟨-, rfl, -, -, hmatched⟩ := checkImport_eq_ok_iff.1 hcheck
      exact .inr hmatched

theorem samePair_install (tk : Toolkit) (s : AuthorityStore) (w : World) (key : String)
    (chain : List String) : s.SamePair w.disk (s.install tk w key chain).world.disk := by
  rcases install_cases tk s w key chain with ⟨e, heq⟩ | ⟨m, -, heq⟩
  · rw [heq]
    exact .refl s w.disk
  · rw [heq]
    exact samePair_replace s w m

theorem workDir_update (tk : Toolkit) (now : Int) (s : AuthorityStore) (w : World)
    (keyType : KeyType) : (s.update tk now w keyType).store.workDir = s.workDir := by
  have hready := (readyPassphrase_store s w).1
  rcases update_cases tk now s w keyType with ⟨e, heq⟩ | ⟨m, -, heq⟩ |
    ⟨-, ⟨w₂, e, -, heq⟩ | ⟨w₂, m, -, heq⟩⟩
  · rw [heq, hready]
  · rw [heq, workDir_replace, hready]
  · rw [heq, hready]
  · rw [heq, workDir_replace, hready]

/-- Stores of one directory have their pair at one place. -/
theorem SamePair.of_workDir {s' : AuthorityStore} (h : s.SamePair d d')
    (hdir : s'.workDir = s.workDir) : s'.SamePair d d' := by
  exact ⟨keyFile_congr hdir ▸ h.key, certificateFile_congr hdir ▸ h.certificate⟩

/-- Getting the passphrase ready does not change what is found on disk. -/
theorem persisted?_readyPassphrase (s : AuthorityStore) (w : World) (keyType : KeyType) :
    (s.readyPassphrase w).1.persisted? tk (s.readyPassphrase w).2.1.disk keyType =
      s.persisted? tk w.disk keyType := by
  have hdir := (readyPassphrase_store s w).1
  have hpair := samePair_readyPassphrase s w
  refine Option.ext fun m => ?_
  rw [persisted?_eq_some_iff, persisted?_eq_some_iff, keyFile_congr hdir,
    certificateFile_congr hdir, hpair.key, hpair.certificate]

/-- What an update puts in force was drawn or found on disk. -/
theorem material_of_update {m : AuthorityMaterial}
    (h : (s.update tk now w keyType).store.material = some m) :
    s.material = some m ∨
      (∃ issued entropy,
        ((tk.newAuthority commonName keyType validity now).run entropy).1 = .ok issued ∧
          m = ⟨issued.key, issued.certificate, []⟩) ∨
      (s.persisted? tk w.disk keyType = some m ∧ (s.update tk now w keyType).result = .ok ()) := by
  have hready := (readyPassphrase_store s w).2
  rcases update_cases tk now s w keyType with ⟨e, heq⟩ | ⟨m', hpersisted, heq⟩ |
    ⟨-, ⟨w₂, e, -, heq⟩ | ⟨w₂, m', hgenerate, heq⟩⟩
  · rw [heq] at h
    exact .inl (hready ▸ h)
  · rw [heq] at h ⊢
    rcases material_of_replace h with hbefore | ⟨hok, rfl⟩
    · exact .inl (hready ▸ hbefore)
    · rw [persisted?_readyPassphrase] at hpersisted
      exact .inr (.inr ⟨hpersisted, hok⟩)
  · rw [heq] at h
    exact .inl (hready ▸ h)
  · rw [heq] at h ⊢
    rcases material_of_replace h with hbefore | ⟨-, rfl⟩
    · exact .inl (hready ▸ hbefore)
    · obtain ⟨issued, entropy, hdraw, hm⟩ := material_of_generate hgenerate
      exact .inr (.inl ⟨issued, _, congrArg Prod.fst hdraw, hm⟩)

/-- What is found on disk is in force after an update that succeeds, as it was found. -/
theorem material_update_of_persisted? {m : AuthorityMaterial}
    (h : s.persisted? tk w.disk keyType = some m)
    (hok : (s.update tk now w keyType).result = .ok ()) :
    (s.update tk now w keyType).store.material = some m := by
  rw [← persisted?_readyPassphrase] at h
  rcases update_cases tk now s w keyType with ⟨e, heq⟩ | ⟨m', hpersisted, heq⟩ | ⟨hnone, -⟩
  · rw [heq] at hok
    cases hok
  · obtain rfl := Option.some.inj (h.symm.trans hpersisted)
    rw [heq] at hok ⊢
    rcases replace_cases (s.readyPassphrase w).1 (s.readyPassphrase w).2.1 m with
      ⟨e, herror, -⟩ | ⟨-, hstore, -⟩
    · rw [hok] at herror
      cases herror
    · rw [hstore]
  · rw [h] at hnone
    cases hnone

/-- An update keeps the pair on disk, replaces it by a drawn one, or fails and keeps the
certificate. -/
theorem pair_update (tk : Toolkit) (now : Int) (s : AuthorityStore) (w : World)
    (keyType : KeyType) :
    s.SamePair w.disk (s.update tk now w keyType).world.disk ∨
      (∃ issued entropy,
        ((tk.newAuthority commonName keyType validity now).run entropy).1 = .ok issued ∧
          (s.update tk now w keyType).world.disk.readText s.keyFile = .ok issued.key ∧
          (s.update tk now w keyType).world.disk.readText s.certificateFile =
            .ok issued.certificate) ∨
      ∀ text, (s.update tk now w keyType).world.disk.readText s.certificateFile = .ok text ↔
        w.disk.readText s.certificateFile = .ok text := by
  have hdir := (readyPassphrase_store s w).1
  have hready := samePair_readyPassphrase s w
  rcases update_cases tk now s w keyType with ⟨e, heq⟩ | ⟨m, -, heq⟩ |
    ⟨-, ⟨w₂, e, hgenerate, heq⟩ | ⟨w₂, m, hgenerate, heq⟩⟩
  · rw [heq]
    exact .inl hready
  · rw [heq]
    exact .inl (hready.trans ((samePair_replace _ _ m).of_workDir hdir.symm))
  · rw [heq]
    refine .inr (.inr fun text => ?_)
    have hsame := readText_certificateFile_of_generate_error hgenerate text
    rw [certificateFile_congr hdir] at hsame
    exact hsame.trans (hready.certificate text)
  · rw [heq]
    obtain ⟨issued, entropy, hdraw, rfl⟩ := material_of_generate hgenerate
    obtain ⟨hkey, hcertificate⟩ := readText_generate hgenerate
    have hsame := samePair_replace (s.readyPassphrase w).1 w₂ ⟨issued.key, issued.certificate, []⟩
    rw [← hsame.key, keyFile_congr hdir] at hkey
    rw [← hsame.certificate, certificateFile_congr hdir] at hcertificate
    exact .inr (.inl ⟨issued, _, congrArg Prod.fst hdraw, hkey, hcertificate⟩)

end AuthorityStore

end DeviceAccess
