import DeviceAccess.Proofs.Attempt
import DeviceAccess.Proofs.Disk.Write
import DeviceAccess.Sessions.DeviceFiles

/-!
# Texts that are stored once

The texts of device certificates are files in one directory (`DeviceFiles.nodeAt?`).  To store a text
is to write the file of its hash if there is none (`DeviceFiles.nodeAt?_store`); no other file changes,
and one that is there stays.
-/

namespace DeviceAccess

theorem Path.text_join_ne_empty (p : Path) {name : String} (h : name ≠ "") :
    (p.join name).text ≠ "" := by
  unfold join
  split
  · exact h
  · split
    · exact fun hempty => h (String.append_eq_empty_iff.1 hempty).2
    · exact fun hempty => h (String.append_eq_empty_iff.1 hempty).2

namespace DeviceFiles

variable {workDir workDir' path : Path} {hash text name : String} {disk disk' : Disk} {n : DiskNode}

/-- What is under a name in the directory of the files. -/
def nodeAt? (workDir : Path) (disk : Disk) (name : String) : Option DiskNode :=
  (disk.find (disk.resolve (directory workDir) ++ [name])).toOption

/-! ### The file of a hash -/

theorem isPlain_of_isHash (h : isHash hash = true) : Path.IsPlain (hash ++ ".pem") where
  ne_empty := fun hempty => absurd (String.append_eq_empty_iff.1 hempty).2 (by decide)
  ne_dot := fun hdot => by
    have hlength := congrArg String.length hdot
    rw [String.length_append] at hlength
    change _ + 4 = 1 at hlength
    omega
  ne_dots := fun hdots => by
    have hlength := congrArg String.length hdots
    rw [String.length_append] at hlength
    change _ + 4 = 2 at hlength
    omega
  no_slash := fun hslash => by
    rw [String.toList_append, List.mem_append] at hslash
    unfold isHash at h
    rw [Bool.and_eq_true_iff, List.all_eq_true] at h
    rcases hslash with hslash | hslash
    · cases h.2 _ hslash
    · revert hslash
      decide

theorem pathFor_eq_ok_iff :
    pathFor workDir hash = .ok path ↔
      isHash hash = true ∧ path = (directory workDir).join (hash ++ ".pem") := by
  unfold pathFor
  by_cases h : isHash hash = true
  · rw [if_pos h, Except.ok.injEq, and_iff_right h, eq_comm]
  · rw [if_neg h]
    exact iff_of_false nofun fun hpath => h hpath.1

theorem resolve_of_pathFor (h : pathFor workDir hash = .ok path) (d : Disk) :
    d.resolve path = d.resolve (directory workDir) ++ [hash ++ ".pem"] := by
  obtain ⟨hhash, rfl⟩ := pathFor_eq_ok_iff.1 h
  exact d.resolve_join _ (isPlain_of_isHash hhash)

theorem text_ne_empty_of_pathFor (h : pathFor workDir hash = .ok path) : path.text ≠ "" := by
  obtain ⟨hhash, rfl⟩ := pathFor_eq_ok_iff.1 h
  exact Path.text_join_ne_empty _ (isPlain_of_isHash hhash).ne_empty

/-! ### What is in the directory -/

theorem nodeAt?_eq_some_iff :
    nodeAt? workDir disk name = some n ↔
      (∀ part ∈ disk.resolve (directory workDir) ++ [name], Disk.nameOk part = true) ∧
        disk.node? (disk.resolve (directory workDir) ++ [name]) = some n := by
  rw [← Disk.find_eq_ok_iff]
  unfold nodeAt?
  cases disk.find (disk.resolve (directory workDir) ++ [name]) with
  | error e => exact iff_of_false nofun nofun
  | ok n' => exact ⟨fun h => congrArg _ (Option.some.inj h), fun h => congrArg _ (Except.ok.inj h)⟩

theorem nodeAt?_congr
    (hplace : disk'.resolve (directory workDir') = disk.resolve (directory workDir))
    (hnode : disk'.node? (disk.resolve (directory workDir) ++ [name]) =
      disk.node? (disk.resolve (directory workDir) ++ [name])) :
    nodeAt? workDir' disk' name = nodeAt? workDir disk name := by
  refine Option.ext fun n => ?_
  rw [nodeAt?_eq_some_iff, nodeAt?_eq_some_iff, hplace, hnode]

/-- Directories that list the same have the same under every name. -/
theorem nodeAt?_congr_of_below
    (hplace : disk'.resolve (directory workDir') = disk.resolve (directory workDir))
    (hbelow : disk'.below (directory workDir') = disk.below (directory workDir)) (name : String) :
    nodeAt? workDir' disk' name = nodeAt? workDir disk name := by
  refine nodeAt?_congr hplace (Option.ext fun n => ?_)
  rw [Disk.node?_append_eq_some_iff (by simp), ← hbelow, ← hplace,
    Disk.node?_append_eq_some_iff (by simp)]

theorem nodeAt?_of_below_eq_nil (h : disk.below (directory workDir) = []) (name : String) :
    nodeAt? workDir disk name = none := by
  refine Option.eq_none_iff_forall_ne_some.2 fun n hn => ?_
  rw [nodeAt?_eq_some_iff, Disk.node?_of_below_eq_nil h (by simp)] at hn
  cases hn.2

/-- A text is loaded exactly if the file of the hash holds it. -/
theorem load_eq_ok_some_iff :
    load workDir hash disk = .ok (some text) ↔
      isHash hash = true ∧
        ∃ mode, nodeAt? workDir disk (hash ++ ".pem") = some (.file (.text text) mode) := by
  unfold load
  cases hpath : pathFor workDir hash with
  | error e =>
      refine iff_of_false nofun fun h => ?_
      cases hpath.symm.trans (pathFor_eq_ok_iff.2 ⟨h.1, rfl⟩)
  | ok path =>
      rw [and_iff_right (pathFor_eq_ok_iff.1 hpath).1]
      have hread : disk.readText path = .ok text ↔
          ∃ mode, nodeAt? workDir disk (hash ++ ".pem") = some (.file (.text text) mode) := by
        simp only [Disk.readText_eq_ok_iff, Disk.find_eq_ok_iff, nodeAt?_eq_some_iff,
          resolve_of_pathFor hpath, text_ne_empty_of_pathFor hpath, ne_eq, not_false_eq_true,
          true_and]
      rw [← hread]
      simp only
      cases disk.readText path with
      | ok text' => simp
      | error e => cases e <;> simp

/-- The path of a hash is in use if something is under its name. -/
theorem holds_of_pathFor (h : pathFor workDir hash = .ok path) :
    disk.holds path = (nodeAt? workDir disk (hash ++ ".pem")).isSome := by
  unfold Disk.holds nodeAt?
  rw [resolve_of_pathFor h, decide_eq_true (text_ne_empty_of_pathFor h), Bool.true_and]

theorem nodeAt?_makeDirectories (workDir : Path) (disk : Disk) (name : String) :
    nodeAt? workDir (disk.makeDirectories (directory workDir)).1 name = nodeAt? workDir disk name := by
  refine nodeAt?_congr (Disk.resolve_congr (Disk.sameFiles_makeDirectories ..).1 _)
    (Disk.node?_makeDirectories fun hprefix => ?_)
  have hlength := hprefix.length_le
  rw [List.length_append, List.length_singleton] at hlength
  omega

theorem nodeAt?_writeText (hpath : pathFor workDir hash = .ok path)
    (h : (disk.writeText path text).2 = .ok ()) :
    ∃ mode, ∀ name, nodeAt? workDir (disk.writeText path text).1 name =
      if hash ++ ".pem" = name then some (.file (.text text) mode)
      else nodeAt? workDir disk name := by
  unfold Disk.writeText at h ⊢
  obtain ⟨hcurrent, ⟨e, herror, -⟩ | ⟨mode, -, hnodes, -, hne, hnames⟩⟩ :=
    Disk.write_cases disk path (.text text) Disk.plainMode false
  · cases h.symm.trans herror
  · rw [resolve_of_pathFor hpath] at hnodes hne hnames
    refine ⟨mode, fun name => Option.ext fun n => ?_⟩
    rw [nodeAt?_eq_some_iff, Disk.resolve_congr hcurrent, Disk.node?_insert disk _ hnodes hne]
    by_cases hname : hash ++ ".pem" = name
    · rw [if_pos hname, if_pos (by rw [hname]), ← hname, and_iff_right hnames]
    · rw [if_neg hname, if_neg (by simpa using hname), nodeAt?_eq_some_iff]

/-- **What storing a text changes.**  The file of the hash is written if nothing is there; all else
stays as it was. -/
theorem nodeAt?_store (h : (store workDir hash text disk).2 = .ok ()) :
    isHash hash = true ∧ ∃ mode, ∀ name,
      nodeAt? workDir (store workDir hash text disk).1 name =
        if hash ++ ".pem" = name then
          some ((nodeAt? workDir disk name).getD (.file (.text text) mode))
        else nodeAt? workDir disk name := by
  unfold store at h ⊢
  cases hpath : pathFor workDir hash with
  | error e =>
      rw [hpath] at h
      cases h
  | ok path =>
      refine ⟨(pathFor_eq_ok_iff.1 hpath).1, ?_⟩
      rw [hpath] at h
      simp only [holds_of_pathFor hpath] at h ⊢
      by_cases hthere : (nodeAt? workDir disk (hash ++ ".pem")).isSome = true
      · rw [if_pos hthere]
        refine ⟨Disk.plainMode, fun name => ?_⟩
        split
        · next hname =>
            obtain ⟨n, hn⟩ := Option.isSome_iff_exists.1 hthere
            rw [← hname, hn, Option.getD_some]
        · rfl
      · rw [if_neg hthere] at h ⊢
        have hnone := Option.not_isSome_iff_eq_none.1 hthere
        have hdirs := nodeAt?_makeDirectories workDir disk
        -- the text is written on the disk that the making of the directory leaves
        revert h hdirs
        generalize disk.makeDirectories (directory workDir) = made
        obtain ⟨disk₁, e | ⟨⟩⟩ := made
        · exact fun h => nomatch h
        · intro h hdirs
          obtain ⟨mode, hwritten⟩ := nodeAt?_writeText hpath (mapError_eq_ok_iff.1 h)
          refine ⟨mode, fun name => (hwritten name).trans ?_⟩
          rw [hdirs]
          split
          · next hname => rw [← hname, hnone, Option.getD_none]
          · rfl

end DeviceFiles

end DeviceAccess
