import DeviceAccess.Proofs.Along
import DeviceAccess.Proofs.Authority.Runs

/-!
# The authority that was generated last

Three things change independently: the pair on disk, the authority in the memory of each store, and
whether anybody is told of a new chain.  An import replaces what is in memory and leaves the pair on
disk, a restart forgets what is in memory, and an update may do either or both.

If no file operation fails, the pair on disk is at all times the authority that was generated last
(`StoreRun.holds_run`).  So an update takes that one up if its key has the wanted algorithm, whatever
was imported or started anew since, and generates one otherwise (`StoreRun.update_run`).
-/

namespace DeviceAccess

/-- The key of a new authority has the algorithm that it was drawn for, and the certificate can be
read. -/
def Toolkit.NewReadable (tk : Toolkit) : Prop :=
  ∀ name keyType validity now entropy issued,
    ((tk.newAuthority name keyType validity now).run entropy).1 = .ok issued →
      tk.keyType issued.key = .ok (some keyType) ∧
        ∃ certificates, tk.chain issued.certificate = .ok certificates

/-- No file operation failed; one that fails makes the operation on the authority fail with its
fault. -/
def AuthorityOutcome.filesSucceed (o : AuthorityOutcome) : Bool :=
  match o.result with
  | .error (.io _) => false
  | _ => true

theorem World.io_of_onDisk {α : Type} {w w' : World} {f : Disk → Disk × Except DiskFault α}
    {e : Fault} (h : w.onDisk f = (w', .error e)) : ∃ reason, e = .io reason := by
  obtain ⟨e', herror⟩ := World.error_of_onDisk h
  have hfile : fileResult (f w.disk).2 = .error e := congrArg Prod.snd h
  rw [herror] at hfile
  exact ⟨e'.message, (Except.error.inj hfile).symm⟩

namespace AuthorityStore

variable {tk : Toolkit} {now : Int} {s : AuthorityStore} {w : World} {keyType : KeyType}

/-! ### If no file operation fails -/

/-- The authority that an update draws if it has to. -/
def drawn (tk : Toolkit) (now : Int) (s : AuthorityStore) (w : World) (keyType : KeyType) :
    Except Fault AuthorityMaterial :=
  ((tk.newAuthority commonName keyType validity now).run (s.readyPassphrase w).2.1.entropy).1.map
    fun issued => ⟨issued.key, issued.certificate, []⟩

theorem readable_of_drawn (hnew : tk.NewReadable) {m : AuthorityMaterial}
    (h : s.drawn tk now w keyType = .ok m) :
    tk.keyType m.key = .ok (some keyType) ∧ ∃ certificates, tk.chain m.signing = .ok certificates := by
  unfold drawn at h
  cases hdraw : ((tk.newAuthority commonName keyType validity now).run
      (s.readyPassphrase w).2.1.entropy).1 with
  | error e =>
      rw [hdraw] at h
      cases h
  | ok issued =>
      rw [hdraw] at h
      obtain rfl := Except.ok.inj h
      exact hnew _ _ _ _ _ _ hdraw

theorem io_of_readyPassphrase {e : Fault} (h : (s.readyPassphrase w).2.2 = .error e) :
    ∃ reason, e = .io reason := by
  unfold readyPassphrase at h
  split at h
  · cases h
  · simp only at h
    split at h
    · cases h
    · split at h
      · next hmake =>
          obtain rfl := Except.error.inj h
          exact World.io_of_onDisk hmake
      · split at h
        · next hwrite =>
            obtain rfl := Except.error.inj h
            exact World.io_of_onDisk hwrite
        · cases h

theorem material_replace {m : AuthorityMaterial} (h : (s.replace w m).filesSucceed = true) :
    (s.replace w m).result = .ok () ∧ (s.replace w m).store.material = some m := by
  unfold AuthorityOutcome.filesSucceed at h
  unfold replace at h ⊢
  split
  · next hmake =>
      obtain ⟨reason, rfl⟩ := World.io_of_onDisk hmake
      rw [hmake] at h
      cases h
  · next hmake =>
      rw [hmake] at h
      simp only at h
      split
      · next hwrite =>
          obtain ⟨reason, rfl⟩ := World.io_of_onDisk hwrite
          rw [hwrite] at h
          cases h
      · exact ⟨rfl, rfl⟩

/-- Generating fails because nothing could be drawn, because of a file, or not at all. -/
theorem generate_cases (tk : Toolkit) (now : Int) (s : AuthorityStore) (w : World)
    (keyType : KeyType) :
    let drawn := (tk.newAuthority commonName keyType validity now).run w.entropy
    (∃ e w', drawn.1 = .error e ∧ w'.disk = w.disk ∧ s.generate tk now w keyType = (w', .error e)) ∨
      (∃ w' reason, s.generate tk now w keyType = (w', .error (.io reason))) ∨
      ∃ issued w', drawn.1 = .ok issued ∧
        s.generate tk now w keyType = (w', .ok ⟨issued.key, issued.certificate, []⟩) := by
  intro drawn
  unfold generate World.draw
  rcases hdraw : (tk.newAuthority commonName keyType validity now).run w.entropy with
    ⟨e | issued, entropy⟩
  · exact .inl ⟨e, ⟨w.disk, entropy⟩, congrArg Prod.fst hdraw, rfl, rfl⟩
  · refine .inr ?_
    simp only
    split
    · next hmake =>
        obtain ⟨reason, rfl⟩ := World.io_of_onDisk hmake
        exact .inl ⟨_, reason, rfl⟩
    · split
      · next hkey =>
          obtain ⟨reason, rfl⟩ := World.io_of_onDisk hkey
          exact .inl ⟨_, reason, rfl⟩
      · split
        · next hcertificate =>
            obtain ⟨reason, rfl⟩ := World.io_of_onDisk hcertificate
            exact .inl ⟨_, reason, rfl⟩
        · exact .inr ⟨issued, _, congrArg Prod.fst hdraw, rfl⟩

/-- If no file operation fails, an update takes up what it finds on disk, and otherwise draws an
authority; one that is drawn is on disk afterwards and in force, and if none can be drawn nothing
changes. -/
theorem update_cases_of_filesSucceed (h : (s.update tk now w keyType).filesSucceed = true) :
    let o := s.update tk now w keyType
    (∃ m, s.persisted? tk w.disk keyType = some m ∧ o.result = .ok () ∧
      o.store.material = some m ∧ s.SamePair w.disk o.world.disk) ∨
    s.persisted? tk w.disk keyType = none ∧
      ((∃ e, s.drawn tk now w keyType = .error e ∧ o.result = .error e ∧
        o.store.material = s.material ∧ s.SamePair w.disk o.world.disk) ∨
      ∃ m, s.drawn tk now w keyType = .ok m ∧ o.result = .ok () ∧ o.store.material = some m ∧
        o.world.disk.readText s.keyFile = .ok m.key ∧
        o.world.disk.readText s.certificateFile = .ok m.signing ∧ m.others = []) := by
  obtain ⟨hdir, hmaterial⟩ := readyPassphrase_store s w
  have hsame := samePair_readyPassphrase s w
  rw [← persisted?_readyPassphrase]
  unfold drawn
  unfold update at h ⊢
  rcases hready : s.readyPassphrase w with ⟨ready, w₁, e | passphrase⟩
  · obtain ⟨reason, rfl⟩ := io_of_readyPassphrase (congrArg (·.2.2) hready)
    rw [hready] at h
    cases h
  · rw [hready] at h hdir hmaterial hsame
    simp only at h hdir hmaterial hsame ⊢
    cases hpersisted : ready.persisted? tk w₁.disk keyType with
    | some m =>
        rw [hpersisted] at h
        obtain ⟨hok, hm⟩ := material_replace h
        exact .inl ⟨m, rfl, hok, hm, hsame.trans ((samePair_replace ready w₁ m).of_workDir hdir.symm)⟩
    | none =>
        rw [hpersisted] at h
        simp only at h
        refine .inr ⟨rfl, ?_⟩
        obtain ⟨e, w₂, hdraw, hdisk, hgenerate⟩ | ⟨w₂, reason, hgenerate⟩ |
          ⟨issued, w₂, hdraw, hgenerate⟩ := generate_cases tk now ready w₁ keyType
        · rw [hgenerate, hdraw]
          refine .inl ⟨e, rfl, rfl, hmaterial, ?_⟩
          show s.SamePair w.disk w₂.disk
          rw [hdisk]
          exact hsame
        · rw [hgenerate] at h
          cases h
        · rw [hgenerate] at h
          rw [hgenerate, hdraw]
          obtain ⟨hok, hm⟩ := material_replace h
          obtain ⟨hkey, hcertificate⟩ := readText_generate hgenerate
          have hpair := samePair_replace ready w₂ ⟨issued.key, issued.certificate, []⟩
          rw [← hpair.key, keyFile_congr hdir] at hkey
          rw [← hpair.certificate, certificateFile_congr hdir] at hcertificate
          exact .inr ⟨_, rfl, hok, hm, hkey, hcertificate, rfl⟩

end AuthorityStore

namespace StoreRun

variable (tk : Toolkit) (workDir : Path)

/-! ### What was generated -/

/-- The store that an event concerns, and the outcome there. -/
def outcome? (r : StoreRun) : Event → Option (AuthorityStore × AuthorityOutcome)
  | .start => none
  | .update store now keyType =>
    r.stores[store]?.map fun s => (s, s.update tk now r.world keyType)
  | .install store key chain =>
    r.stores[store]?.map fun s => (s, s.install tk r.world key chain)

/-- No file operation of an event fails. -/
def FilesSucceed (r : StoreRun) (event : Event) : Prop :=
  ((r.outcome? tk event).all fun o => o.2.filesSucceed) = true

instance (tk : Toolkit) (r : StoreRun) (event : Event) : Decidable (r.FilesSucceed tk event) :=
  inferInstanceAs (Decidable (_ = true))

/-- The authority that an event generates, with the algorithm of its key. -/
def generated? (r : StoreRun) : Event → Option (KeyType × AuthorityMaterial)
  | .update store now keyType =>
    match r.stores[store]? with
    | none => none
    | some s =>
      if (s.persisted? tk r.world.disk keyType).isSome then none
      else (s.drawn tk now r.world keyType).toOption.map fun m => (keyType, m)
  | .start | .install _ _ _ => none

/-- The authority that was generated last in a run, with the algorithm of its key. -/
def lastGenerated? (world : World) (events : List Event) : Option (KeyType × AuthorityMaterial) :=
  (events.foldl (fun (r, last) event =>
    (step tk workDir r event, (generated? tk r event).or last)) (⟨world, []⟩, none)).2

variable {tk workDir} {r : StoreRun} {event : Event} {events : List Event} {world : World}
  {m : AuthorityMaterial} {keyType : KeyType} {last : Option (KeyType × AuthorityMaterial)}

theorem FilesSucceed.outcome {s : AuthorityStore} {o : AuthorityOutcome}
    (h : r.FilesSucceed tk event) (ho : r.outcome? tk event = some (s, o)) :
    o.filesSucceed = true := by
  unfold FilesSucceed at h
  rw [ho] at h
  exact h

theorem outcome?_update {store : Nat} {s : AuthorityStore} (hs : r.stores[store]? = some s)
    (now : Int) (keyType : KeyType) : r.outcome? tk (.update store now keyType) =
      some (s, s.update tk now r.world keyType) := by
  simp only [outcome?, hs, Option.map_some]

/-- Somebody is told of a new chain exactly if the chain in memory changed. -/
theorem changed_outcome?_iff {s : AuthorityStore} {o : AuthorityOutcome}
    (h : r.outcome? tk event = some (s, o)) : o.changed ≠ none ↔ o.store.chain ≠ s.chain := by
  cases event with
  | start => cases h
  | update store now keyType =>
      obtain ⟨s', -, heq⟩ := Option.map_eq_some_iff.1 h
      obtain ⟨rfl, rfl⟩ := Prod.mk.inj heq
      exact AuthorityStore.changed_update_iff tk now s' r.world keyType
  | install store key chain =>
      obtain ⟨s', -, heq⟩ := Option.map_eq_some_iff.1 h
      obtain ⟨rfl, rfl⟩ := Prod.mk.inj heq
      exact AuthorityStore.changed_install_iff tk s' r.world key chain

theorem lastGenerated?_concat (tk : Toolkit) (workDir : Path) (world : World)
    (events : List Event) (event : Event) :
    lastGenerated? tk workDir world (events ++ [event]) =
      (generated? tk (run tk workDir world events) event).or
        (lastGenerated? tk workDir world events) := by
  have hrun : (events.foldl (fun (r, last) event =>
      (step tk workDir r event, (generated? tk r event).or last)) (⟨world, []⟩, none)).1 =
      run tk workDir world events := by
    induction events using List.reverseRecOn with
    | nil => rfl
    | append_singleton events event ih =>
        rw [run_concat, ← ih, List.foldl_append]
        rfl
  unfold lastGenerated?
  rw [← hrun, List.foldl_append]
  rfl

/-! ### What is on disk -/

/-- The pair on disk is an authority whose key has an algorithm, or there is no key. -/
def Holds (tk : Toolkit) (workDir : Path) (disk : Disk) :
    Option (KeyType × AuthorityMaterial) → Prop
  | none => ∀ text, disk.readText (AuthorityStore.ofDirectory workDir).keyFile ≠ .ok text
  | some (keyType, m) =>
    (AuthorityStore.ofDirectory workDir).persisted? tk disk keyType = some m

theorem Holds.of_samePair {d d' : Disk} (h : Holds tk workDir d last)
    (hsame : (AuthorityStore.ofDirectory workDir).SamePair d d') : Holds tk workDir d' last := by
  cases last with
  | none => exact fun text hread => h text ((hsame.key text).1 hread)
  | some last =>
      obtain ⟨hkey, hcertificate, hreadable⟩ := AuthorityStore.persisted?_eq_some_iff.1 h
      exact AuthorityStore.persisted?_eq_some_iff.2
        ⟨(hsame.key _).2 hkey, (hsame.certificate _).2 hcertificate, hreadable⟩

/-- A store finds what is on disk, if the algorithm is the wanted one. -/
theorem Holds.persisted?_eq_some_iff {disk : Disk} (h : Holds tk workDir disk last)
    {s : AuthorityStore} (hdir : s.workDir = workDir) :
    s.persisted? tk disk keyType = some m ↔ last = some (keyType, m) := by
  have hplace : s.workDir = (AuthorityStore.ofDirectory workDir).workDir := hdir
  rw [AuthorityStore.persisted?_eq_some_iff, AuthorityStore.keyFile_congr hplace,
    AuthorityStore.certificateFile_congr hplace, ← AuthorityStore.persisted?_eq_some_iff]
  cases last with
  | none =>
      refine iff_of_false (fun hm => ?_) nofun
      exact h m.key (AuthorityStore.persisted?_eq_some_iff.1 hm).1
  | some last =>
      obtain ⟨keyType', m'⟩ := last
      constructor
      · intro hm
        obtain ⟨hkey, hcertificate, hothers, hfound, -⟩ := AuthorityStore.persisted?_eq_some_iff.1 hm
        obtain ⟨hkey', hcertificate', hothers', hfound', -⟩ :=
          AuthorityStore.persisted?_eq_some_iff.1 h
        -- Both are what the two files hold, and the algorithm is read off the key.
        obtain ⟨key, signing, others⟩ := m
        obtain ⟨key', signing', others'⟩ := m'
        obtain rfl : key' = key := Except.ok.inj (hkey'.symm.trans hkey)
        obtain rfl : signing' = signing := Except.ok.inj (hcertificate'.symm.trans hcertificate)
        obtain rfl : others' = others := hothers'.trans hothers.symm
        obtain rfl : keyType' = keyType :=
          Option.some.inj (Except.ok.inj (hfound'.symm.trans hfound))
        rfl
      · intro heq
        obtain ⟨rfl, rfl⟩ := Prod.mk.inj (Option.some.inj heq)
        exact h

/-- In an empty directory nothing was generated. -/
theorem holds_of_empty {disk : Disk} (h : disk.below workDir = []) : Holds tk workDir disk none :=
  fun _ => Disk.readText_ne_of_below_eq_nil h (List.cons_ne_nil _ _)
    (AuthorityStore.resolve_keyFile disk (.ofDirectory workDir))

/-! ### What one event does -/

theorem generated?_update {store : Nat} {s : AuthorityStore} (hs : r.stores[store]? = some s)
    (now : Int) (keyType : KeyType) :
    r.generated? tk (.update store now keyType) =
      if (s.persisted? tk r.world.disk keyType).isSome then none
      else (s.drawn tk now r.world keyType).toOption.map fun m => (keyType, m) := by
  simp only [generated?, hs]

/-- An update takes up what was generated last if it has the wanted algorithm, and generates an
authority otherwise; in either case the authority that was generated last is on disk afterwards. -/
theorem update_cases_of_holds (hnew : tk.NewReadable) {store : Nat} {s : AuthorityStore} {now : Int}
    (hs : r.stores[store]? = some s) (hdir : s.workDir = workDir)
    (hfiles : (s.update tk now r.world keyType).filesSucceed = true)
    (h : Holds tk workDir r.world.disk last) :
    let o := s.update tk now r.world keyType
    let generated := r.generated? tk (.update store now keyType)
    (∃ m, last = some (keyType, m) ∧ generated = none ∧ o.result = .ok () ∧
      o.store.material = some m ∧ Holds tk workDir o.world.disk last) ∨
    (∀ m, last ≠ some (keyType, m)) ∧
      ((∃ e, s.drawn tk now r.world keyType = .error e ∧ generated = none ∧ o.result = .error e ∧
        o.store.material = s.material ∧ Holds tk workDir o.world.disk last) ∨
      ∃ m, s.drawn tk now r.world keyType = .ok m ∧ generated = some (keyType, m) ∧
        o.result = .ok () ∧ o.store.material = some m ∧
        Holds tk workDir o.world.disk (some (keyType, m))) := by
  intro o generated
  have hplace : (AuthorityStore.ofDirectory workDir).workDir = s.workDir := hdir.symm
  have hgenerated : generated = _ := generated?_update hs now keyType
  rcases AuthorityStore.update_cases_of_filesSucceed hfiles with
    ⟨m, hpersisted, hok, hm, hsame⟩ | ⟨hpersisted, hdrawn⟩
  · refine .inl ⟨m, (h.persisted?_eq_some_iff hdir).1 hpersisted, ?_, hok, hm,
      h.of_samePair (hsame.of_workDir hplace)⟩
    rw [hgenerated, hpersisted]
    rfl
  · rw [hpersisted] at hgenerated
    refine .inr ⟨fun m hlast => ?_, ?_⟩
    · have hfound := (h.persisted?_eq_some_iff hdir).2 hlast
      rw [hpersisted] at hfound
      cases hfound
    · rcases hdrawn with ⟨e, hdraw, herror, hm, hsame⟩ | ⟨m, hdraw, hok, hm, hkey, hcertificate, hothers⟩
      · rw [hdraw] at hgenerated
        exact .inl ⟨e, hdraw, hgenerated, herror, hm, h.of_samePair (hsame.of_workDir hplace)⟩
      · rw [hdraw] at hgenerated
        refine .inr ⟨m, hdraw, hgenerated, hok, hm, AuthorityStore.persisted?_eq_some_iff.2 ?_⟩
        rw [AuthorityStore.keyFile_congr hplace, AuthorityStore.certificateFile_congr hplace]
        exact ⟨hkey, hcertificate, hothers, AuthorityStore.readable_of_drawn hnew hdraw⟩

theorem holds_step (hnew : tk.NewReadable) (hdir : ∀ s ∈ r.stores, s.workDir = workDir)
    (hfiles : r.FilesSucceed tk event) (h : Holds tk workDir r.world.disk last) :
    Holds tk workDir (r.step tk workDir event).world.disk ((r.generated? tk event).or last) := by
  cases event with
  | start => exact h
  | install store key chain =>
      show Holds tk workDir (r.step tk workDir (.install store key chain)).world.disk last
      cases hs : r.stores[store]? with
      | none => simpa only [step, hs] using h
      | some s =>
          have hplace : (AuthorityStore.ofDirectory workDir).workDir = s.workDir :=
            (hdir s (List.mem_of_getElem? hs)).symm
          have hsame := (AuthorityStore.samePair_install tk s r.world key chain).of_workDir hplace
          simp only [step, hs]
          exact h.of_samePair hsame
  | update store now keyType =>
      cases hs : r.stores[store]? with
      | none => simpa only [step, generated?, hs, Option.none_or] using h
      | some s =>
          rw [step_update hs]
          have hsucceed := hfiles.outcome (outcome?_update hs now keyType)
          rcases update_cases_of_holds hnew hs (hdir s (List.mem_of_getElem? hs)) hsucceed h with
            ⟨m, -, hgenerated, -, -, hafter⟩ | ⟨-, ⟨e, -, hgenerated, -, -, hafter⟩ |
            ⟨m, -, hgenerated, -, -, hafter⟩⟩
          · rw [hgenerated]
            exact hafter
          · rw [hgenerated]
            exact hafter
          · rw [hgenerated]
            exact hafter

/-! ### Runs -/

/-- If no file operation fails, the pair on disk is the authority that was generated last. -/
theorem holds_run (hnew : tk.NewReadable) (hempty : world.disk.below workDir = [])
    (hfiles : Along (step tk workDir) (FilesSucceed tk) ⟨world, []⟩ events) :
    Holds tk workDir (run tk workDir world events).world.disk
      (lastGenerated? tk workDir world events) := by
  induction events using List.reverseRecOn with
  | nil => exact holds_of_empty hempty
  | append_singleton events event ih =>
      obtain ⟨hbefore, hlast, -⟩ := along_append.1 hfiles
      rw [run_concat, lastGenerated?_concat]
      exact holds_step hnew (workDir_run world events) hlast (ih hbefore)

/-- An update that succeeds leaves the authority that it put in force as the one generated last. -/
theorem holds_of_update_ok (hnew : tk.NewReadable) {store : Nat} {s : AuthorityStore} {now : Int}
    (hs : r.stores[store]? = some s) (hdir : s.workDir = workDir)
    (hfiles : (s.update tk now r.world keyType).filesSucceed = true)
    (h : Holds tk workDir r.world.disk last) (hok : (s.update tk now r.world keyType).result = .ok ()) :
    ∃ m, (s.update tk now r.world keyType).store.material = some m ∧
      Holds tk workDir (s.update tk now r.world keyType).world.disk (some (keyType, m)) := by
  rcases update_cases_of_holds hnew hs hdir hfiles h with
    ⟨m, rfl, -, -, hm, hafter⟩ | ⟨-, ⟨e, -, -, herror, -⟩ | ⟨m, -, -, -, hm, hafter⟩⟩
  · exact ⟨m, hm, hafter⟩
  · rw [hok] at herror
    cases herror
  · exact ⟨m, hm, hafter⟩

/-- An update for the algorithm of the authority in force, if that was generated last, tells nobody
of a new chain. -/
theorem changed_update_of_holds {s : AuthorityStore} {w : World} {now : Int}
    (hdir : s.workDir = workDir) (hfiles : (s.update tk now w keyType).filesSucceed = true)
    (h : Holds tk workDir w.disk (some (keyType, m))) (hm : s.material = some m) :
    (s.update tk now w keyType).changed = none := by
  have hfound : s.persisted? tk w.disk keyType = some m := (h.persisted?_eq_some_iff hdir).2 rfl
  rcases AuthorityStore.update_cases_of_filesSucceed hfiles with ⟨m', hm', -, hafter, -⟩ | ⟨hnone, -⟩
  · obtain rfl := Option.some.inj (hfound.symm.trans hm')
    by_contra hchanged
    refine (AuthorityStore.changed_update_iff tk now s w keyType).1 hchanged ?_
    rw [AuthorityStore.chain_of_material hafter, AuthorityStore.chain_of_material hm]
  · rw [hfound] at hnone
    cases hnone

/-- The store of an update after it. -/
theorem getElem?_step_update (tk : Toolkit) (workDir : Path) {store : Nat} {s : AuthorityStore}
    (hs : r.stores[store]? = some s) (now : Int) (keyType : KeyType) :
    (r.step tk workDir (.update store now keyType)).stores[store]? =
      some (s.update tk now r.world keyType).store := by
  obtain ⟨hlt, -⟩ := List.getElem?_eq_some_iff.1 hs
  rw [step_update hs]
  exact List.getElem?_set_self hlt

/-- The second of two equal updates tells nobody. -/
theorem changed_second_update (hnew : tk.NewReadable) {store : Nat} {s : AuthorityStore}
    {now now' : Int} (hs : r.stores[store]? = some s) (hdir : s.workDir = workDir)
    (h : Holds tk workDir r.world.disk last)
    (hfirst : r.FilesSucceed tk (.update store now keyType))
    (hsecond : (r.step tk workDir (.update store now keyType)).FilesSucceed tk
      (.update store now' keyType))
    (hok : (s.update tk now r.world keyType).result = .ok ()) :
    ((s.update tk now r.world keyType).store.update tk now'
      (s.update tk now r.world keyType).world keyType).changed = none := by
  obtain ⟨m, hm, hafter⟩ :=
    holds_of_update_ok hnew hs hdir (hfirst.outcome (outcome?_update hs now keyType)) h hok
  have hstore := getElem?_step_update tk workDir hs now keyType
  have hfiles := hsecond.outcome (outcome?_update hstore now' keyType)
  rw [step_update hs] at hfiles
  refine changed_update_of_holds ?_ hfiles hafter hm
  rw [AuthorityStore.workDir_update]
  exact hdir

/-- **What an update puts in force.**  Let the toolkit's new authorities be readable with the
algorithm that they are drawn for, and let no file operation fail.  In every run of updates, imports
and new stores from an empty work directory, an update puts the authority that was generated last in
force if its key has the wanted algorithm, whatever was imported or made anew since; otherwise it
draws one, which is from then on the one in force, the one on disk and the one generated last, unless
drawing fails, and then nothing changes.  An operation tells of a new chain exactly if it changes the
chain in memory; so the second of two equal updates tells nobody. -/
theorem update_run (tk : Toolkit) (hnew : tk.NewReadable) (workDir : Path) (world : World)
    (hempty : world.disk.below workDir = []) (events : List Event)
    (hfiles : Along (step tk workDir) (FilesSucceed tk) ⟨world, []⟩ events) :
    let after := run tk workDir world
    let last := lastGenerated? tk workDir world
    (∀ before store now keyType s, before ++ [.update store now keyType] <+: events →
      (after before).stores[store]? = some s →
      let o := s.update tk now (after before).world keyType
      let next := last (before ++ [.update store now keyType])
      (∀ m, last before = some (keyType, m) →
        o.result = .ok () ∧ o.store.material = some m ∧ next = last before) ∧
      ((∀ m, last before ≠ some (keyType, m)) →
        match s.drawn tk now (after before).world keyType with
        | .error e => o.result = .error e ∧ o.store.material = s.material ∧ next = last before
        | .ok m => o.result = .ok () ∧ o.store.material = some m ∧ next = some (keyType, m) ∧
          o.world.disk.readText s.keyFile = .ok m.key ∧
          o.world.disk.readText s.certificateFile = .ok m.signing)) ∧
    (∀ before event s o, before ++ [event] <+: events →
      (after before).outcome? tk event = some (s, o) →
      (o.changed ≠ none ↔ o.store.chain ≠ s.chain)) ∧
    ∀ before store now now' keyType s,
      before ++ [.update store now keyType, .update store now' keyType] <+: events →
      (after before).stores[store]? = some s →
      let first := s.update tk now (after before).world keyType
      first.result = .ok () →
      (first.store.update tk now' first.world keyType).changed = none := by
  intro after last
  have hbefore : ∀ {before : List Event} {event : Event}, before ++ [event] <+: events →
      Holds tk workDir (after before).world.disk (last before) ∧
        (after before).FilesSucceed tk event := by
    rintro before event ⟨more, rfl⟩
    obtain ⟨hbefore, hevent, -⟩ := along_append.1 (along_append.1 hfiles).1
    exact ⟨holds_run hnew hempty hbefore, hevent⟩
  have hdir : ∀ {before : List Event} {store : Nat} {s : AuthorityStore},
      (after before).stores[store]? = some s → s.workDir = workDir :=
    fun hs => workDir_run world _ _ (List.mem_of_getElem? hs)
  refine ⟨?_, fun before event s o _ ho => changed_outcome?_iff ho, ?_⟩
  · intro before store now keyType s hstart hs o next
    obtain ⟨hholds, hevent⟩ := hbefore hstart
    have hnext : next = _ := lastGenerated?_concat tk workDir world before _
    rcases update_cases_of_holds hnew hs (hdir hs) (hevent.outcome (outcome?_update hs now keyType))
      hholds with ⟨m, hlast, hgenerated, hok, hm, -⟩ | ⟨hother, ⟨e, hdraw, hgenerated, herror, hm, -⟩ |
      ⟨m, hdraw, hgenerated, hok, hm, hafter⟩⟩
    · rw [hgenerated] at hnext
      refine ⟨fun m' hm' => ?_, fun hother => absurd hlast (hother m)⟩
      obtain ⟨-, rfl⟩ := Prod.mk.inj (Option.some.inj (hlast.symm.trans hm'))
      exact ⟨hok, hm, hnext⟩
    · rw [hgenerated] at hnext
      refine ⟨fun m' hm' => absurd hm' (hother m'), fun _ => ?_⟩
      rw [hdraw]
      exact ⟨herror, hm, hnext⟩
    · rw [hgenerated] at hnext
      refine ⟨fun m' hm' => absurd hm' (hother m'), fun _ => ?_⟩
      rw [hdraw]
      have hplace : s.workDir = (AuthorityStore.ofDirectory workDir).workDir := hdir hs
      obtain ⟨hkey, hcertificate, -⟩ := AuthorityStore.persisted?_eq_some_iff.1 hafter
      rw [← AuthorityStore.keyFile_congr hplace] at hkey
      rw [← AuthorityStore.certificateFile_congr hplace] at hcertificate
      exact ⟨hok, hm, hnext, hkey, hcertificate⟩
  · intro before store now now' keyType s hstart hs first hok
    have hsplit : before ++ [.update store now keyType, .update store now' keyType] =
        (before ++ [.update store now keyType]) ++ [.update store now' keyType] := by simp
    rw [hsplit] at hstart
    obtain ⟨hholds, hevent⟩ := hbefore ((List.prefix_append _ _).trans hstart)
    obtain ⟨-, hnext⟩ := hbefore hstart
    have hrun : after (before ++ [.update store now keyType]) =
        (after before).step tk workDir (.update store now keyType) :=
      run_concat tk workDir world before _
    rw [hrun] at hnext
    exact changed_second_update hnew hs (hdir hs) hholds hevent hnext hok

/-! ### An import and a restart -/

theorem newReadable_namedToolkit : namedToolkit.NewReadable := by
  intro name keyType validity now entropy issued h
  obtain rfl := Except.ok.inj h
  exact ⟨by cases keyType <;> decide, [], rfl⟩

/-- An empty disk. -/
def cleanWorld : World := ⟨.empty, .ofSeed []⟩

/-- Another authority is imported beside the generated one; after a restart the same algorithm is
wanted twice. -/
def restartedRun : List Event :=
  [.start, .update 0 0 .ecdsaP256, .install 0 "imported" ["certificate for imported"], .start,
    .update 1 0 .ecdsaP256, .update 1 0 .ecdsaP256]

/-- The restarted store takes up the generated authority, which the import replaced in memory only,
and the second update tells nobody. -/
theorem update_run_restartedRun :
    let after := run namedToolkit ⟨"/work"⟩ cleanWorld
    let before := restartedRun.take 4
    namedToolkit.NewReadable ∧ cleanWorld.disk.below ⟨"/work"⟩ = [] ∧
      Along (step namedToolkit ⟨"/work"⟩) (FilesSucceed namedToolkit) ⟨cleanWorld, []⟩ restartedRun ∧
      (after before).stores.map (·.chain) = [["certificate for imported"], []] ∧
      ∀ s, (after before).stores[1]? = some s →
        let first := s.update namedToolkit 0 (after before).world .ecdsaP256
        first.store.material = some ⟨"ECDSA_P256", "certificate for ECDSA_P256", []⟩ ∧
          first.changed ≠ none ∧
          (first.store.update namedToolkit 0 first.world .ecdsaP256).changed = none := by
  intro after before
  have hempty : cleanWorld.disk.below ⟨"/work"⟩ = [] := rfl
  have hfiles : Along (step namedToolkit ⟨"/work"⟩) (FilesSucceed namedToolkit) ⟨cleanWorld, []⟩
      restartedRun := by decide +kernel
  have hlast : lastGenerated? namedToolkit ⟨"/work"⟩ cleanWorld before =
      some (.ecdsaP256, ⟨"ECDSA_P256", "certificate for ECDSA_P256", []⟩) := by decide +kernel
  have hchains : (after before).stores.map (·.chain) = [["certificate for imported"], []] := by
    decide +kernel
  obtain ⟨hupdate, hchanged, hsecond⟩ := update_run namedToolkit newReadable_namedToolkit ⟨"/work"⟩
    cleanWorld hempty restartedRun hfiles
  refine ⟨newReadable_namedToolkit, hempty, hfiles, hchains, fun s hs => ?_⟩
  have hstart : before ++ [.update 1 0 .ecdsaP256] <+: restartedRun :=
    ⟨[.update 1 0 .ecdsaP256], rfl⟩
  obtain ⟨hok, hm, -⟩ := (hupdate before 1 0 .ecdsaP256 s hstart hs).1 _ hlast
  refine ⟨hm, ?_, hsecond before 1 0 0 .ecdsaP256 s ⟨[], rfl⟩ hs hok⟩
  refine (hchanged before _ s _ hstart (outcome?_update hs 0 .ecdsaP256)).2 ?_
  rw [AuthorityStore.chain_of_material hm]
  have hchain : s.chain = [] := by
    have hget := congrArg (·[1]?) hchains
    simp only [List.getElem?_map] at hget
    rw [hs] at hget
    exact Option.some.inj hget
  rw [hchain]
  exact List.cons_ne_nil _ _

end StoreRun

end DeviceAccess
