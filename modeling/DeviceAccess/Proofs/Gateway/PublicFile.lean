import DeviceAccess.Proofs.Authority.Files
import DeviceAccess.Proofs.Leaf.Issuing

/-!
# The published certificate

An operation on the authority fails and leaves the authority in memory as it was, or it succeeds and
has published the signing certificate in force (`AuthorityOutcome.AllOrNothing`).  The bundles that
follow from a new chain are written after that.  A directory of bundles has a file of the same name,
with the chain of the authority, so a subscription that takes its bundles from the work directory gets
the whole chain there; all others leave the published certificate alone
(`Subscriptions.keepsWithin_issueEach`).

`Disk.KeepsWithin` says of two disks that the text of a file changed, if at all, to one of some texts.
-/

namespace DeviceAccess

namespace Disk

variable {d d' d'' : Disk} {p q : Path} {text : String} {texts : String → Prop}

/-- From `d` to `d'` relative paths start from the same directory, and a file that has one of some texts
still has one of them. -/
structure KeepsWithin (q : Path) (texts : String → Prop) (d d' : Disk) : Prop where
  current : d'.current = d.current
  readText : (∃ text, d.readText q = .ok text ∧ texts text) →
    ∃ text, d'.readText q = .ok text ∧ texts text

theorem KeepsWithin.refl (q : Path) (texts : String → Prop) (d : Disk) : KeepsWithin q texts d d :=
  ⟨rfl, id⟩

theorem KeepsWithin.trans (h : KeepsWithin q texts d d') (h' : KeepsWithin q texts d' d'') :
    KeepsWithin q texts d d'' :=
  ⟨h'.current.trans h.current, fun hd => h'.readText (h.readText hd)⟩

theorem KeepsWithin.of_sameFiles (h : SameFiles d d') : KeepsWithin q texts d d' :=
  ⟨h.1, fun ⟨text, hread, htext⟩ => ⟨text, h.readText.2 hread, htext⟩⟩

/-- Paths that lead to one place have one text. -/
theorem readText_of_resolve_eq (hq : q.text ≠ "") (h : d.resolve p = d.resolve q)
    (hread : d.readText p = .ok text) : d.readText q = .ok text := by
  obtain ⟨-, hfind⟩ := readText_eq_ok_iff.1 hread
  exact readText_eq_ok_iff.2 ⟨hq, h ▸ hfind⟩

/-- A write leaves a file alone, or gives it the text that is written. -/
theorem keepsWithin_write {mode : Nat} {force : Bool}
    (h : d.resolve p = d.resolve q → texts text) :
    KeepsWithin q texts d (d.write p (.text text) mode force).1 := by
  have hcurrent := (write_cases d p (.text text) mode force).1
  refine ⟨hcurrent, fun ⟨before, hread, hbefore⟩ => ?_⟩
  by_cases hplace : d.resolve p = d.resolve q
  · rcases hresult : (d.write p (.text text) mode force).2 with e | ⟨⟩
    · exact ⟨before, (sameFiles_write_of_error hresult).readText.2 hread, hbefore⟩
    · refine ⟨text, readText_of_resolve_eq (readText_eq_ok_iff.1 hread).1 ?_ (readText_write hresult),
        h hplace⟩
      rw [resolve_congr hcurrent, resolve_congr hcurrent, hplace]
  · exact ⟨before, (readText_write_of_ne hplace).2 hread, hbefore⟩

theorem keepsWithin_of_makeDirectories {r : Except DiskFault Unit}
    (h : d.makeDirectories p = (d', r)) : KeepsWithin q texts d d' := by
  have hsame := sameFiles_makeDirectories d p
  rw [h] at hsame
  exact .of_sameFiles hsame

theorem keepsWithin_of_writeText {r : Except DiskFault Unit} (h : d.writeText p text = (d', r))
    (hplace : d.resolve p = d.resolve q → texts text) : KeepsWithin q texts d d' := by
  have hwrite : KeepsWithin q texts d (d.writeText p text).1 := keepsWithin_write hplace
  rw [h] at hwrite
  exact hwrite

end Disk

/-! ### Bundles -/

namespace Bundle

variable {b : Bundle} {directory dir : Path} {d : Disk} {texts : String → Prop}

/-- Files of different names are different, whatever directories they are in. -/
theorem resolve_join_ne {name other : String} (hname : Path.IsPlain name) (hother : Path.IsPlain other)
    (hne : name ≠ other) (d : Disk) (p q : Path) :
    d.resolve (p.join name) ≠ d.resolve (q.join other) := by
  rw [d.resolve_join p hname, d.resolve_join q hother]
  intro heq
  exact hne (List.singleton_inj.1 (List.append_inj' heq rfl).2)

/-- A bundle that is written to a directory leaves the file `ca.pem` of another directory alone, and
puts the chain in its own. -/
theorem keepsWithin_write (h : d.resolve directory = d.resolve dir → texts (String.join b.authorities)) :
    Disk.KeepsWithin (dir.join "ca.pem") texts d (b.write directory d).1 := by
  have hpublic : Path.IsPlain "ca.pem" := ⟨by decide, by decide, by decide, by decide⟩
  have hcertificate : Path.IsPlain "cert.pem" := ⟨by decide, by decide, by decide, by decide⟩
  have hkey : Path.IsPlain "key.pem" := ⟨by decide, by decide, by decide, by decide⟩
  unfold write
  rcases hmake : d.makeDirectories directory with ⟨d₁, r₁⟩
  have h₁ : Disk.KeepsWithin (dir.join "ca.pem") texts d d₁ :=
    Disk.keepsWithin_of_makeDirectories hmake
  cases r₁ with
  | error e => exact h₁
  | ok =>
      simp only
      rcases hfirst : d₁.writeText (certificateFile directory) b.certificate with ⟨d₂, r₂⟩
      have h₂ := h₁.trans (Disk.keepsWithin_of_writeText hfirst fun heq =>
        absurd heq (resolve_join_ne hcertificate hpublic (by decide) d₁ directory dir))
      cases r₂ with
      | error e => exact h₂
      | ok =>
          simp only
          rcases hsecond : d₂.writeText (authoritiesFile directory) (String.join b.authorities) with
            ⟨d₃, r₃⟩
          have hplace : d₂.resolve (authoritiesFile directory) = d₂.resolve (dir.join "ca.pem") →
              d.resolve directory = d.resolve dir := by
            intro heq
            unfold authoritiesFile at heq
            rw [d₂.resolve_join _ hpublic, d₂.resolve_join _ hpublic, Disk.resolve_congr h₂.current,
              Disk.resolve_congr h₂.current] at heq
            exact (List.append_inj' heq rfl).1
          have h₃ := h₂.trans (Disk.keepsWithin_of_writeText hsecond fun heq => h (hplace heq))
          cases r₃ with
          | error e => exact h₃
          | ok =>
              exact h₃.trans (Disk.keepsWithin_write fun heq =>
                absurd heq (resolve_join_ne hkey hpublic (by decide) d₃ directory dir))

end Bundle

namespace Subscriptions

variable {tk : Toolkit} {now : Int} {authority : AuthorityStore} {m : Subscriptions} {w : World}
  {dir : Path} {texts : String → Prop}

/-- Whoever takes its bundles from the directory `dir` may have the chain in force put there. -/
def MayPublish (authority : AuthorityStore) (d : Disk) (dir : Path) (texts : String → Prop)
    (r : Recipient) : Prop :=
  ∀ ca path, authority.material = some ca → r = .directory path → d.resolve path = d.resolve dir →
    texts (String.join ca.chain)

theorem MayPublish.congr {d d' : Disk} {r : Recipient} (h : MayPublish authority d dir texts r)
    (hcurrent : d'.current = d.current) : MayPublish authority d' dir texts r := by
  intro ca path hca hr hplace
  rw [Disk.resolve_congr hcurrent, Disk.resolve_congr hcurrent] at hplace
  exact h ca path hca hr hplace

/-- An issuance leaves the file `ca.pem` of a directory alone, or puts the chain in force there. -/
theorem keepsWithin_issueTo (tk : Toolkit) (now : Int) (m : Subscriptions) {e : Nat × Subscription}
    (h : MayPublish authority w.disk dir texts e.2.recipient) :
    Disk.KeepsWithin (dir.join "ca.pem") texts w.disk
      (issueTo tk now authority m w e).2.1.disk := by
  show Disk.KeepsWithin _ _ _ (e.2.issue tk now authority m.settings w _).world.disk
  unfold Subscription.issue AuthorityStore.inForce
  split
  · exact .refl _ _ _
  · cases hca : authority.material with
    | none => exact .refl _ _ _
    | some ca =>
        simp only
        split
        · next hdraw => exact World.disk_of_draw hdraw ▸ .refl _ _ _
        · next hdraw =>
            rw [← World.disk_of_draw hdraw] at h ⊢
            split
            · exact .refl _ _ _
            · simp only
              cases hr : e.2.recipient with
              | caller name => exact .refl _ _ _
              | directory path => exact Bundle.keepsWithin_write fun hplace => h ca path hca hr hplace

theorem keepsWithin_issueEach (tk : Toolkit) (now : Int) (m : Subscriptions) (n : Nat)
    {es : List (Nat × Subscription)}
    (h : ∀ e ∈ es, MayPublish authority w.disk dir texts e.2.recipient) :
    Disk.KeepsWithin (dir.join "ca.pem") texts w.disk
      (issueEach tk now authority (m, w, n) es).2.1.disk := by
  induction es generalizing m w n with
  | nil => exact .refl _ _ _
  | cons e es ih =>
      have hfirst := keepsWithin_issueTo tk now m (h e List.mem_cons_self)
      have hrest : ∀ e' ∈ es, MayPublish authority (issueTo tk now authority m w e).2.1.disk dir
          texts e'.2.recipient := fun e' he' =>
        (h e' (List.mem_cons_of_mem e he')).congr hfirst.current
      rcases hissue : issueTo tk now authority m w e with ⟨m', w', f | ⟨⟩⟩
      · rw [hissue] at hfirst hrest
        rw [issueEach_of_error hissue]
        exact hfirst.trans (ih m' n hrest)
      · rw [hissue] at hfirst hrest
        rw [issueEach_of_ok hissue]
        exact hfirst.trans (ih m' (n + 1) hrest)

end Subscriptions

namespace AuthorityStore

variable {tk : Toolkit} {s : AuthorityStore} {w : World}

/-! ### Publishing -/

/-- Whoever puts an authority in force has published its signing certificate. -/
theorem readText_publicFile_of_replace {m : AuthorityMaterial}
    (h : (s.replace w m).result = .ok ()) :
    (s.replace w m).store.material = some m ∧
      (s.replace w m).world.disk.readText s.publicFile = .ok m.signing := by
  unfold replace at h ⊢
  split at h
  · cases h
  · split at h
    · cases h
    · next hwrite =>
        refine ⟨rfl, ?_⟩
        simp only
        rw [World.disk_of_onDisk hwrite]
        exact Disk.readText_write (World.ok_of_onDisk hwrite)

end AuthorityStore

/-- An operation on the authority of a store is all or nothing: it fails, leaves the authority in
memory and reports no new chain, or it succeeds and has published the signing certificate in force. -/
def AuthorityOutcome.AllOrNothing (s : AuthorityStore) (o : AuthorityOutcome) : Prop :=
  o.store.workDir = s.workDir ∧
    ((∃ e, o.result = .error e ∧ o.store.material = s.material ∧ o.changed = none) ∨
      o.result = .ok () ∧ ∃ m, o.store.material = some m ∧
        o.world.disk.readText o.store.publicFile = .ok m.signing)

namespace AuthorityStore

variable {tk : Toolkit} {s : AuthorityStore} {w : World}

theorem allOrNothing_replace {ready : AuthorityStore} (hdir : ready.workDir = s.workDir)
    (hmaterial : ready.material = s.material) (w : World) (m : AuthorityMaterial) :
    (ready.replace w m).AllOrNothing s := by
  refine ⟨(workDir_replace ready w m).trans hdir, ?_⟩
  obtain ⟨e, herror, hstore, hchanged⟩ | ⟨hok, -, -⟩ := replace_cases ready w m
  · exact .inl ⟨e, herror, (congrArg material hstore).trans hmaterial, hchanged⟩
  · obtain ⟨hm, hread⟩ := readText_publicFile_of_replace hok
    refine .inr ⟨hok, m, hm, ?_⟩
    unfold publicFile at hread ⊢
    rw [workDir_replace]
    exact hread

theorem allOrNothing_install (tk : Toolkit) (s : AuthorityStore) (w : World) (key : String)
    (chain : List String) : (s.install tk w key chain).AllOrNothing s := by
  obtain ⟨e, heq⟩ | ⟨m, -, heq⟩ := install_cases tk s w key chain
  · rw [heq]
    exact ⟨rfl, .inl ⟨e, rfl, rfl, rfl⟩⟩
  · rw [heq]
    exact allOrNothing_replace rfl rfl w m

theorem allOrNothing_update (tk : Toolkit) (now : Int) (s : AuthorityStore) (w : World)
    (keyType : KeyType) : (s.update tk now w keyType).AllOrNothing s := by
  obtain ⟨hdir, hmaterial⟩ := readyPassphrase_store s w
  obtain ⟨e, heq⟩ | ⟨m, -, heq⟩ | ⟨-, ⟨w₂, e, -, heq⟩ | ⟨w₂, m, -, heq⟩⟩ :=
    update_cases tk now s w keyType
  · rw [heq]
    exact ⟨hdir, .inl ⟨e, rfl, hmaterial, rfl⟩⟩
  · rw [heq]
    exact allOrNothing_replace hdir hmaterial _ m
  · rw [heq]
    exact ⟨hdir, .inl ⟨e, rfl, hmaterial, rfl⟩⟩
  · rw [heq]
    exact allOrNothing_replace hdir hmaterial _ m

end AuthorityStore

end DeviceAccess
