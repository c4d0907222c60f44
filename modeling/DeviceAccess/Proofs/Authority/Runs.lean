import Mathlib.Data.List.Induction
import DeviceAccess.Proofs.Authority.Files

/-!
# Keys and certificates of the authority

Stores of one work directory share its files; a new store begins without an authority in memory, as
after a restart.  In a run of updates and imports on such stores the key of every authority in force is
the one that its signing certificate certifies, as long as no update is *torn*: one that writes a new
key beside an old certificate, because the write of its own certificate fails
(`StoreRun.matched_run`).  An import checks the key and a generated authority is matched by itself, so
the only way to an authority that is not matched is to take up a torn pair from disk: this is not
checked, and one torn update followed by another update is enough (`StoreRun.tornRun_unmatched`).
-/

namespace DeviceAccess

/-- The key is the one that the signing certificate certifies. -/
def AuthorityMaterial.Matched (tk : Toolkit) (m : AuthorityMaterial) : Prop :=
  tk.certifiedBy m.key m.signing = .ok true

/-- Every new authority of the toolkit is matched. -/
def Toolkit.NewMatched (tk : Toolkit) : Prop :=
  ∀ name keyType validity now entropy issued,
    ((tk.newAuthority name keyType validity now).run entropy).1 = .ok issued →
      tk.certifiedBy issued.key issued.certificate = .ok true

/-- Stores of one work directory, and the world that they share. -/
structure StoreRun where
  world : World
  stores : List AuthorityStore

namespace StoreRun

/-- What happens to the stores of a work directory. -/
inductive Event where
  /-- A new store is made. -/
  | start
  | update (store : Nat) (now : Int) (keyType : KeyType)
  | install (store : Nat) (key : String) (chain : List String)

variable (tk : Toolkit) (workDir : Path)

/-- The stores after an operation on one of them. -/
def settle (r : StoreRun) (store : Nat) (o : AuthorityOutcome) : StoreRun :=
  ⟨o.world, r.stores.set store o.store⟩

/-- The stores after an event. -/
def step (r : StoreRun) : Event → StoreRun
  | .start => { r with stores := r.stores ++ [.ofDirectory workDir] }
  | .update store now keyType =>
    match r.stores[store]? with
    | none => r
    | some s => r.settle store (s.update tk now r.world keyType)
  | .install store key chain =>
    match r.stores[store]? with
    | none => r
    | some s => r.settle store (s.install tk r.world key chain)

/-- The stores after events, one after the other; at first there is none. -/
def run (world : World) (events : List Event) : StoreRun :=
  events.foldl (step tk workDir) ⟨world, []⟩

theorem run_concat (world : World) (events : List Event) (event : Event) :
    run tk workDir world (events ++ [event]) =
      (run tk workDir world events).step tk workDir event := by
  unfold run
  rw [List.foldl_append]
  rfl

/-- Every authority in force is matched. -/
def AllMatched (r : StoreRun) : Prop :=
  ∀ s ∈ r.stores, ∀ m, s.material = some m → m.Matched tk

/-- The event is an update that succeeds with the authority `m` from disk. -/
def TakesUp (r : StoreRun) (event : Event) (m : AuthorityMaterial) : Prop :=
  ∃ store now keyType s, event = .update store now keyType ∧ r.stores[store]? = some s ∧
    s.persisted? tk r.world.disk keyType = some m ∧
    (s.update tk now r.world keyType).result = .ok ()

/-- Between two disks the key was written anew and the certificate was not. -/
def Torn (before after : Disk) : Prop :=
  let s := AuthorityStore.ofDirectory workDir
  (∃ key, after.readText s.keyFile = .ok key ∧ before.readText s.keyFile ≠ .ok key) ∧
    ∃ certificate, after.readText s.certificateFile = .ok certificate ∧
      before.readText s.certificateFile = .ok certificate

/-- The key and the certificate on disk, if both are there, belong together. -/
def PairMatched (disk : Disk) : Prop :=
  let s := AuthorityStore.ofDirectory workDir
  ∀ key certificate, disk.readText s.keyFile = .ok key →
    disk.readText s.certificateFile = .ok certificate → tk.certifiedBy key certificate = .ok true

variable {tk workDir} {r : StoreRun} {event : Event} {m : AuthorityMaterial}

/-! ### What one event does -/

/-- After an event a store is one from before, a new one, or the one that an operation left. -/
theorem mem_step {s : AuthorityStore} (h : s ∈ (r.step tk workDir event).stores) :
    s ∈ r.stores ∨ s = .ofDirectory workDir ∨
      (∃ store now keyType s₀, event = .update store now keyType ∧ r.stores[store]? = some s₀ ∧
        s = (s₀.update tk now r.world keyType).store) ∨
      ∃ store key chain s₀, event = .install store key chain ∧ r.stores[store]? = some s₀ ∧
        s = (s₀.install tk r.world key chain).store := by
  cases event with
  | start =>
      rcases List.mem_append.1 h with hs | hs
      · exact .inl hs
      · exact .inr (.inl (List.mem_singleton.1 hs))
  | update store now keyType =>
      unfold step at h
      simp only at h
      split at h
      · exact .inl h
      · next s₀ hs₀ =>
          rcases List.mem_or_eq_of_mem_set h with hs | rfl
          · exact .inl hs
          · exact .inr (.inr (.inl ⟨store, now, keyType, s₀, rfl, hs₀, rfl⟩))
  | install store key chain =>
      unfold step at h
      simp only at h
      split at h
      · exact .inl h
      · next s₀ hs₀ =>
          rcases List.mem_or_eq_of_mem_set h with hs | rfl
          · exact .inl hs
          · exact .inr (.inr (.inr ⟨store, key, chain, s₀, rfl, hs₀, rfl⟩))

theorem workDir_step (h : ∀ s ∈ r.stores, s.workDir = workDir) :
    ∀ s ∈ (r.step tk workDir event).stores, s.workDir = workDir := by
  intro s hs
  rcases mem_step hs with hs | rfl | ⟨store, now, keyType, s₀, -, hs₀, rfl⟩ |
    ⟨store, key, chain, s₀, -, hs₀, rfl⟩
  · exact h s hs
  · rfl
  · rw [AuthorityStore.workDir_update]
    exact h s₀ (List.mem_of_getElem? hs₀)
  · rw [AuthorityStore.workDir_install]
    exact h s₀ (List.mem_of_getElem? hs₀)

/-- An authority in force was in force before, or is matched, or comes from disk. -/
theorem material_step (hnew : tk.NewMatched) {s : AuthorityStore}
    (hs : s ∈ (r.step tk workDir event).stores) (hm : s.material = some m) :
    (∃ s₀ ∈ r.stores, s₀.material = some m) ∨ m.Matched tk ∨ r.TakesUp tk event m := by
  rcases mem_step hs with hs | rfl | ⟨store, now, keyType, s₀, rfl, hs₀, rfl⟩ |
    ⟨store, key, chain, s₀, -, hs₀, rfl⟩
  · exact .inl ⟨s, hs, hm⟩
  · cases hm
  · rcases AuthorityStore.material_of_update hm with hbefore | ⟨issued, entropy, hdraw, rfl⟩ |
      ⟨hpersisted, hok⟩
    · exact .inl ⟨s₀, List.mem_of_getElem? hs₀, hbefore⟩
    · exact .inr (.inl (hnew _ _ _ _ _ _ hdraw))
    · exact .inr (.inr ⟨store, now, keyType, s₀, rfl, hs₀, hpersisted, hok⟩)
  · rcases AuthorityStore.material_of_install hm with hbefore | hmatched
    · exact .inl ⟨s₀, List.mem_of_getElem? hs₀, hbefore⟩
    · exact .inr (.inl hmatched)

theorem step_update {store : Nat} {s : AuthorityStore} (hs : r.stores[store]? = some s) (now : Int)
    (keyType : KeyType) : r.step tk workDir (.update store now keyType) =
      r.settle store (s.update tk now r.world keyType) := by
  simp only [step, hs]

/-- What is taken up from disk is in force. -/
theorem TakesUp.material (workDir : Path) (h : r.TakesUp tk event m) :
    ∃ s ∈ (r.step tk workDir event).stores, s.material = some m := by
  obtain ⟨store, now, keyType, s, rfl, hs, hpersisted, hok⟩ := h
  refine ⟨(s.update tk now r.world keyType).store, ?_,
    AuthorityStore.material_update_of_persisted? hpersisted hok⟩
  obtain ⟨hlt, -⟩ := List.getElem?_eq_some_iff.1 hs
  rw [step_update hs]
  exact List.mem_set hlt _

theorem PairMatched.of_samePair {d d' : Disk} (h : PairMatched tk workDir d)
    (hsame : (AuthorityStore.ofDirectory workDir).SamePair d d') : PairMatched tk workDir d' :=
  fun key certificate hkey hcertificate =>
    h key certificate ((hsame.key key).1 hkey) ((hsame.certificate certificate).1 hcertificate)

/-- An event that is not torn keeps the pair on disk matched. -/
theorem pairMatched_step (hnew : tk.NewMatched) (hdir : ∀ s ∈ r.stores, s.workDir = workDir)
    (hpair : PairMatched tk workDir r.world.disk)
    (htorn : ¬Torn workDir r.world.disk (r.step tk workDir event).world.disk) :
    PairMatched tk workDir (r.step tk workDir event).world.disk := by
  have hplace : ∀ {store : Nat} {s : AuthorityStore}, r.stores[store]? = some s →
      (AuthorityStore.ofDirectory workDir).workDir = s.workDir :=
    fun hs => (hdir _ (List.mem_of_getElem? hs)).symm
  cases event with
  | start => exact hpair
  | install store key chain =>
      cases hs : r.stores[store]? with
      | none => simpa only [step, hs] using hpair
      | some s =>
          have hsame := (AuthorityStore.samePair_install tk s r.world key chain).of_workDir (hplace hs)
          simp only [step, hs]
          exact hpair.of_samePair hsame
  | update store now keyType =>
      cases hs : r.stores[store]? with
      | none => simpa only [step, hs] using hpair
      | some s =>
          rw [step_update hs] at htorn ⊢
          have hkeyFile := AuthorityStore.keyFile_congr (hplace hs)
          have hcertificateFile := AuthorityStore.certificateFile_congr (hplace hs)
          rcases AuthorityStore.pair_update tk now s r.world keyType with hsame |
            ⟨issued, entropy, hdraw, hkey, hcertificate⟩ | hsame
          · exact hpair.of_samePair (hsame.of_workDir (hplace hs))
          · intro key certificate hkey' hcertificate'
            rw [hkeyFile] at hkey'
            rw [hcertificateFile] at hcertificate'
            obtain rfl := Except.ok.inj (hkey.symm.trans hkey')
            obtain rfl := Except.ok.inj (hcertificate.symm.trans hcertificate')
            exact hnew _ _ _ _ _ _ hdraw
          · intro key certificate hkey hcertificate
            have hbefore : r.world.disk.readText
                (AuthorityStore.ofDirectory workDir).certificateFile = .ok certificate := by
              rw [hcertificateFile] at hcertificate ⊢
              exact (hsame certificate).1 hcertificate
            by_cases hold : r.world.disk.readText (AuthorityStore.ofDirectory workDir).keyFile = .ok key
            · exact hpair key certificate hold hbefore
            · exact absurd ⟨⟨key, hkey, hold⟩, certificate, hcertificate, hbefore⟩ htorn

/-- What is taken up from a matched pair is matched. -/
theorem matched_of_takesUp (hdir : ∀ s ∈ r.stores, s.workDir = workDir)
    (hpair : PairMatched tk workDir r.world.disk) (h : r.TakesUp tk event m) : m.Matched tk := by
  obtain ⟨store, now, keyType, s, -, hs, hpersisted, -⟩ := h
  obtain ⟨hkey, hcertificate, -⟩ := AuthorityStore.persisted?_eq_some_iff.1 hpersisted
  have hplace : s.workDir = (AuthorityStore.ofDirectory workDir).workDir :=
    hdir s (List.mem_of_getElem? hs)
  rw [AuthorityStore.keyFile_congr hplace] at hkey
  rw [AuthorityStore.certificateFile_congr hplace] at hcertificate
  exact hpair _ _ hkey hcertificate

/-! ### Runs -/

theorem workDir_run (world : World) (events : List Event) :
    ∀ s ∈ (run tk workDir world events).stores, s.workDir = workDir := by
  induction events using List.reverseRecOn with
  | nil => exact fun s hs => absurd hs List.not_mem_nil
  | append_singleton events event ih =>
      rw [run_concat]
      exact workDir_step ih

/-- In an empty directory there is no pair. -/
theorem pairMatched_of_empty {disk : Disk} (h : disk.below workDir = []) :
    PairMatched tk workDir disk := by
  intro key certificate hkey
  exact absurd hkey (Disk.readText_ne_of_below_eq_nil h (List.cons_ne_nil _ _)
    (AuthorityStore.resolve_keyFile disk (.ofDirectory workDir)))

/-- Without a torn update the pair on disk stays matched. -/
theorem pairMatched_run (hnew : tk.NewMatched) {world : World}
    (hempty : world.disk.below workDir = []) {events : List Event}
    (htorn : ∀ before event after, events = before ++ event :: after →
      ¬Torn workDir (run tk workDir world before).world.disk
        (run tk workDir world (before ++ [event])).world.disk) :
    PairMatched tk workDir (run tk workDir world events).world.disk := by
  induction events using List.reverseRecOn with
  | nil => exact pairMatched_of_empty hempty
  | append_singleton events event ih =>
      have hlast := htorn events event [] rfl
      rw [run_concat] at hlast ⊢
      refine pairMatched_step hnew (workDir_run world events) (ih ?_) hlast
      rintro before event' after rfl
      exact htorn before event' (after ++ [event]) (by simp)

/-- All authorities in force are matched if all that were taken up from disk are. -/
theorem allMatched_of_takesUp (hnew : tk.NewMatched) {world : World} {events : List Event}
    (h : ∀ before event after m, events = before ++ event :: after →
      (run tk workDir world before).TakesUp tk event m → m.Matched tk) :
    (run tk workDir world events).AllMatched tk := by
  induction events using List.reverseRecOn with
  | nil => exact fun s hs => absurd hs List.not_mem_nil
  | append_singleton events event ih =>
      intro s hs m hm
      rw [run_concat] at hs
      rcases material_step hnew hs hm with ⟨s₀, hs₀, hbefore⟩ | hmatched | htakes
      · refine ih ?_ s₀ hs₀ m hbefore
        rintro before event' after m' rfl
        exact h before event' (after ++ [event]) m' (by simp)
      · exact hmatched
      · exact h events event [] m rfl htakes

/-- **When the authorities in force are matched.**  Let the toolkit's new authorities be matched.  In
every run of stores on an empty work directory, whatever writes fail, all authorities in force are
matched if no update was torn.  All authorities in force have been matched throughout the run exactly
if every authority that an update took up from disk was: such an update puts in force whatever pair it
finds. -/
theorem matched_run (tk : Toolkit) (hnew : tk.NewMatched) (workDir : Path) (world : World)
    (hempty : world.disk.below workDir = []) (events : List Event) :
    let after := run tk workDir world
    ((∀ before event more, events = before ++ event :: more →
        ¬Torn workDir (after before).world.disk (after (before ++ [event])).world.disk) →
      (after events).AllMatched tk) ∧
    ((∀ before, before <+: events → (after before).AllMatched tk) ↔
      ∀ before event more m, events = before ++ event :: more →
        (after before).TakesUp tk event m → m.Matched tk) := by
  intro after
  constructor
  · intro htorn
    refine allMatched_of_takesUp hnew ?_
    rintro before event more m rfl htakes
    refine matched_of_takesUp (workDir_run world before) (pairMatched_run hnew hempty ?_) htakes
    rintro before' event' more' rfl
    exact htorn before' event' (more' ++ event :: more) (by simp)
  · constructor
    · rintro hall before event more m rfl htakes
      obtain ⟨s, hs, hm⟩ := htakes.material workDir
      rw [← run_concat] at hs
      exact hall (before ++ [event]) ⟨more, by simp⟩ s hs m hm
    · rintro h before ⟨rest, rfl⟩
      refine allMatched_of_takesUp hnew ?_
      rintro before' event more m rfl htakes
      exact h before' event (more ++ rest) m (by simp) htakes

/-! ### A torn update -/

/-- Keys and certificates that are told by the algorithm of the key. -/
def namedToolkit : Toolkit :=
  { Toolkit.standard with
    chain := fun _ => .ok []
    keyType := fun key => .ok (if key = KeyType.rsa2048.name then some .rsa2048 else some .ecdsaP256)
    certifiedBy := fun key certificate => .ok (certificate = "certificate for " ++ key)
    newAuthority := fun _ keyType _ _ =>
      pure (.ok ⟨"certificate for " ++ keyType.name, keyType.name⟩) }

theorem newMatched_namedToolkit : namedToolkit.NewMatched := by
  intro name keyType validity now entropy issued h
  obtain rfl := Except.ok.inj h
  simp [namedToolkit]

/-- An empty disk whose sixth write fails. -/
def faultyWorld : World :=
  ⟨⟨∅, [], [false, false, false, false, false, true]⟩, .ofSeed []⟩

/-- The second update fails between its key and its certificate; the third one succeeds. -/
def tornRun : List Event :=
  [.start, .update 0 0 .rsa2048, .update 0 0 .ecdsaP256, .update 0 0 .ecdsaP256]

theorem stores_tornRun :
    (run namedToolkit ⟨"/work"⟩ faultyWorld tornRun).stores.map (·.material) =
      [some ⟨"ECDSA_P256", "certificate for RSA_2048", []⟩] := by
  decide +kernel

theorem exists_unmatched : ∃ s ∈ (run namedToolkit ⟨"/work"⟩ faultyWorld tornRun).stores, ∃ m,
    s.material = some m ∧ namedToolkit.certifiedBy m.key m.signing = .ok false := by
  have hmaterials : some (⟨"ECDSA_P256", "certificate for RSA_2048", []⟩ : AuthorityMaterial) ∈
      (run namedToolkit ⟨"/work"⟩ faultyWorld tornRun).stores.map (·.material) := by
    rw [stores_tornRun]
    exact List.mem_singleton_self _
  obtain ⟨s, hs, hmaterial⟩ := List.mem_map.1 hmaterials
  exact ⟨s, hs, _, hmaterial, by decide⟩

/-- The update after a torn one takes up a pair that is not matched. -/
theorem matched_run_tornRun :
    namedToolkit.NewMatched ∧ faultyWorld.disk.below ⟨"/work"⟩ = [] ∧
      ∃ before event more m, tornRun = before ++ event :: more ∧
        (run namedToolkit ⟨"/work"⟩ faultyWorld before).TakesUp namedToolkit event m ∧
        ¬m.Matched namedToolkit := by
  have hempty : faultyWorld.disk.below ⟨"/work"⟩ = [] := rfl
  refine ⟨newMatched_namedToolkit, hempty, ?_⟩
  by_contra hnone
  have hall := (matched_run namedToolkit newMatched_namedToolkit ⟨"/work"⟩ faultyWorld hempty
    tornRun).2.2 fun before event more m hevents htakes => by_contra fun hm =>
      hnone ⟨before, event, more, m, hevents, htakes, hm⟩
  obtain ⟨s, hs, m, hm, hfalse⟩ := exists_unmatched
  have hmatched := hall tornRun (List.prefix_refl tornRun) s hs m hm
  rw [AuthorityMaterial.Matched, hfalse] at hmatched
  cases hmatched

/-- In an empty directory, with one failing write, an authority comes into force whose key is not the
one that its certificate certifies. -/
theorem tornRun_unmatched :
    namedToolkit.NewMatched ∧ faultyWorld.disk.below ⟨"/work"⟩ = [] ∧
      ∃ s ∈ (run namedToolkit ⟨"/work"⟩ faultyWorld tornRun).stores, ∃ m,
        s.material = some m ∧ namedToolkit.certifiedBy m.key m.signing = .ok false :=
  ⟨newMatched_namedToolkit, rfl, exists_unmatched⟩

end StoreRun

end DeviceAccess
