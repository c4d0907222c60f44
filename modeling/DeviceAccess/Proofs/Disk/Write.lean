import DeviceAccess.Proofs.Disk.Path
import DeviceAccess.Proofs.Ordered

/-!
# Reading after writing

A write that succeeds can be read back (`Disk.readText_write`) and keeps the texts of the files at
other places (`Disk.readText_write_of_ne`).  A write that fails, like the making of directories,
changes no file (`Disk.sameFiles_write_of_error`, `Disk.sameFiles_makeDirectories`).  The files and
directories below a directory are those listed below it (`Disk.node?_append_eq_some_iff`).
-/

namespace DeviceAccess

namespace Disk

variable {d d' : Disk} {p q : Path} {text : String}

theorem find_eq_ok_iff {names : List String} {n : DiskNode} :
    d.find names = .ok n ↔ (∀ name ∈ names, nameOk name = true) ∧ d.node? names = some n := by
  have hany : (names.any fun n => !nameOk n) = true ↔ ¬∀ name ∈ names, nameOk name = true := by
    simp
  unfold find
  by_cases hnames : ∀ name ∈ names, nameOk name = true
  · rw [if_neg (by rw [hany]; exact not_not_intro hnames), and_iff_right hnames]
    cases d.node? names with
    | some n' => simp
    | none =>
        simp only
        split
        · exact iff_of_false nofun nofun
        · exact iff_of_false nofun nofun
  · rw [if_pos (hany.2 hnames)]
    exact iff_of_false nofun fun h => hnames h.1

theorem find_nil (d : Disk) : d.find [] = .ok .directory := rfl

theorem nameOk_of_find_eq_notFound {names : List String} (h : d.find names = .error .notFound) :
    ∀ name ∈ names, nameOk name = true := by
  unfold find at h
  split at h
  · cases h
  · next hany => simpa using hany

/-- A path has a text if a text file is at its place. -/
theorem readText_eq_ok_iff :
    d.readText p = .ok text ↔ p.text ≠ "" ∧
      ∃ mode, d.find (d.resolve p) = .ok (.file (.text text) mode) := by
  unfold readText
  by_cases hempty : p.text = ""
  · rw [if_pos hempty]
    exact iff_of_false nofun fun h => h.1 hempty
  · rw [if_neg hempty, and_iff_right hempty]
    cases hfind : d.find (d.resolve p) with
    | error e => simp
    | ok n =>
        cases n with
        | directory => simp
        | file content mode =>
            cases content with
            | text t => simp
            | bytes b => simp

/-- Disks with the same file at a place have the same text there. -/
theorem readText_eq_ok_congr (hcurrent : d'.current = d.current)
    (hnode : ∀ content mode, d'.node? (d.resolve p) = some (.file content mode) ↔
      d.node? (d.resolve p) = some (.file content mode)) :
    d'.readText p = .ok text ↔ d.readText p = .ok text := by
  simp only [readText_eq_ok_iff, resolve_congr hcurrent, find_eq_ok_iff, hnode]

/-- The same files are at the same places, and relative paths start from the same directory. -/
def SameFiles (d d' : Disk) : Prop :=
  d'.current = d.current ∧ ∀ names content mode,
    d'.node? names = some (.file content mode) ↔ d.node? names = some (.file content mode)

theorem SameFiles.readText (h : SameFiles d d') :
    d'.readText q = .ok text ↔ d.readText q = .ok text :=
  readText_eq_ok_congr h.1 fun content mode => h.2 _ content mode

/-! ### Writing -/

theorem nextFault_spec (d : Disk) :
    d.nextFault.2.nodes = d.nodes ∧ d.nextFault.2.current = d.current := by
  unfold nextFault
  split
  · exact ⟨rfl, rfl⟩
  · exact ⟨rfl, rfl⟩

/-- A write fails and changes no file, or puts a file at its place. -/
theorem write_cases (d : Disk) (p : Path) (content : FileContent) (mode : Nat) (force : Bool) :
    (d.write p content mode force).1.current = d.current ∧
      ((∃ e, (d.write p content mode force).2 = .error e ∧
          (d.write p content mode force).1.nodes = d.nodes) ∨
        ∃ mode', (d.write p content mode force).2 = .ok () ∧
          (d.write p content mode force).1.nodes =
            d.nodes.insert (d.resolve p) (.file content mode') ∧
          p.text ≠ "" ∧ d.resolve p ≠ [] ∧ ∀ name ∈ d.resolve p, nameOk name = true) := by
  obtain ⟨hnodes, hcurrent⟩ := nextFault_spec d
  unfold write
  generalize d.nextFault = next at hnodes hcurrent
  obtain ⟨faulty, d₁⟩ := next
  simp only at hnodes hcurrent ⊢
  rw [← resolve_congr hcurrent p, ← hnodes, ← hcurrent]
  by_cases hfaulty : faulty = true
  · rw [if_pos hfaulty]
    exact ⟨rfl, .inl ⟨_, rfl, rfl⟩⟩
  rw [if_neg hfaulty]
  by_cases hempty : p.text = ""
  · rw [if_pos hempty]
    exact ⟨rfl, .inl ⟨_, rfl, rfl⟩⟩
  rw [if_neg hempty]
  have hnonempty : d₁.find (d₁.resolve p) ≠ .ok .directory → d₁.resolve p ≠ [] :=
    fun hfind hnil => hfind (hnil ▸ find_nil d₁)
  cases hfind : d₁.find (d₁.resolve p) with
  | ok n =>
      cases n with
      | directory => exact ⟨rfl, .inl ⟨_, rfl, rfl⟩⟩
      | file old oldMode =>
          have hne := hnonempty (by simp [hfind])
          exact ⟨rfl, .inr ⟨_, rfl, rfl, hempty, hne, (find_eq_ok_iff.1 hfind).1⟩⟩
  | error e =>
      by_cases hnew : e = .notFound
      · subst hnew
        have hne := hnonempty (by simp [hfind])
        simp only
        split
        · exact ⟨rfl, .inr ⟨_, rfl, rfl, hempty, hne, nameOk_of_find_eq_notFound hfind⟩⟩
        · exact ⟨rfl, .inl ⟨_, rfl, rfl⟩⟩
        · exact ⟨rfl, .inl ⟨_, rfl, rfl⟩⟩
      · cases e with
        | notFound => exact absurd rfl hnew
        | _ => exact ⟨rfl, .inl ⟨_, rfl, rfl⟩⟩

theorem node?_insert (d : Disk) (d' : Disk) {names : List String} {n : DiskNode}
    (hnodes : d'.nodes = d.nodes.insert names n) (hne : names ≠ []) (names' : List String) :
    d'.node? names' = if names = names' then some n else d.node? names' := by
  unfold node?
  rw [hnodes, OrderedMap.get?_insert]
  by_cases heq : names = names'
  · subst heq
    rw [if_neg (by simpa using hne), if_pos rfl, if_pos rfl]
  · rw [if_neg heq, if_neg heq]

variable {mode : Nat} {force : Bool} {content : FileContent}

/-- What was written can be read. -/
theorem readText_write (h : (d.write p (.text text) mode force).2 = .ok ()) :
    (d.write p (.text text) mode force).1.readText p = .ok text := by
  obtain ⟨hcurrent, ⟨e, herror, -⟩ | ⟨mode', -, hnodes, hempty, hne, hnames⟩⟩ :=
    write_cases d p (.text text) mode force
  · rw [h] at herror
    cases herror
  · rw [readText_eq_ok_iff, resolve_congr hcurrent]
    refine ⟨hempty, mode', find_eq_ok_iff.2 ⟨hnames, ?_⟩⟩
    rw [node?_insert d _ hnodes hne, if_pos rfl]

/-- A write that fails changes no file. -/
theorem sameFiles_write_of_error {e : DiskFault} (h : (d.write p content mode force).2 = .error e) :
    SameFiles d (d.write p content mode force).1 := by
  obtain ⟨hcurrent, ⟨e', -, hnodes⟩ | ⟨mode', hok, -⟩⟩ := write_cases d p content mode force
  · refine ⟨hcurrent, fun names content' mode' => ?_⟩
    unfold node?
    rw [hnodes]
  · rw [h] at hok
    cases hok

/-- A write keeps the texts of the files at other places. -/
theorem readText_write_of_ne (h : d.resolve p ≠ d.resolve q) :
    (d.write p content mode force).1.readText q = .ok text ↔ d.readText q = .ok text := by
  obtain ⟨hcurrent, ⟨e, herror, -⟩ | ⟨mode', -, hnodes, -, hne, -⟩⟩ := write_cases d p content mode force
  · exact (sameFiles_write_of_error herror).readText
  · refine readText_eq_ok_congr hcurrent fun content' mode' => ?_
    rw [node?_insert d _ hnodes hne, if_neg h]

/-! ### Making directories -/

/-- A directory where nothing was changes no file. -/
theorem SameFiles.put_directory {names : List String} (h : SameFiles d d')
    (hnone : d'.node? names = none) : SameFiles d (d'.put names .directory) := by
  have hne : names ≠ [] := by
    rintro rfl
    cases hnone
  refine ⟨h.1, fun names' content mode => ?_⟩
  rw [← h.2, node?_insert d' (d'.put names .directory) rfl hne]
  split
  · next heq =>
      rw [← heq, hnone]
      exact iff_of_false nofun nofun
  · rfl

/-- Making directories changes no file. -/
theorem sameFiles_makeDirectories (d : Disk) (p : Path) : SameFiles d (d.makeDirectories p).1 := by
  unfold makeDirectories
  refine List.foldlRecOn (motive := fun acc : Disk × Except DiskFault Unit => SameFiles d acc.1) _ _
    ⟨rfl, fun _ _ _ => Iff.rfl⟩ ?_
  rintro ⟨d', e | ⟨⟩⟩ h k -
  · exact h
  · simp only
    split
    · exact h
    · split
      · exact h
      · exact h
      · next hnone => exact h.put_directory hnone

/-- Making directories changes only places on the way to them. -/
theorem node?_makeDirectories {names : List String} (h : ¬names <+: d.resolve p) :
    (d.makeDirectories p).1.node? names = d.node? names := by
  unfold makeDirectories
  refine List.foldlRecOn
    (motive := fun acc : Disk × Except DiskFault Unit => acc.1.node? names = d.node? names) _ _ rfl ?_
  rintro ⟨d', e | ⟨⟩⟩ hsame k -
  · exact hsame
  · simp only
    split
    · exact hsame
    · split
      · exact hsame
      · exact hsame
      · next hnone =>
          have hne : (d.resolve p).take k ≠ [] := by
            intro hnil
            rw [hnil] at hnone
            cases hnone
          rw [node?_insert d' (d'.put _ .directory) rfl hne, if_neg, hsame]
          rintro rfl
          exact h (List.take_prefix ..)

/-! ### What is below a directory -/

/-- What is listed below a directory is what is at the places behind its own. -/
theorem node?_append_eq_some_iff {names : List String} (hne : names ≠ []) {n : DiskNode} :
    d.node? (d.resolve p ++ names) = some n ↔ (names, n) ∈ d.below p := by
  have hlength : 0 < names.length := List.length_pos_iff.2 hne
  unfold node? below
  rw [if_neg (by simp [hne]), OrderedMap.get?_eq_some_iff, List.mem_filterMap]
  constructor
  · intro hmem
    refine ⟨_, hmem, ?_⟩
    rw [List.isPrefixOf_iff_prefix.2 (List.prefix_append _ _), Bool.true_and,
      if_pos (by rw [List.length_append, decide_eq_true_eq]; omega), List.drop_left]
  · rintro ⟨⟨names', n'⟩, hmem, hlisted⟩
    obtain ⟨hbelow, heq⟩ := Option.ite_none_right_eq_some.1 hlisted
    obtain ⟨rfl, rfl⟩ := Prod.mk.inj (Option.some.inj heq)
    obtain ⟨rest, rfl⟩ := List.isPrefixOf_iff_prefix.1 (Bool.and_eq_true_iff.1 hbelow).1
    rwa [List.drop_left]

/-- Below an empty directory is nothing. -/
theorem node?_of_below_eq_nil (h : d.below p = []) {names : List String} (hne : names ≠ []) :
    d.node? (d.resolve p ++ names) = none := by
  refine Option.eq_none_iff_forall_ne_some.2 fun n hn => ?_
  rw [node?_append_eq_some_iff hne, h] at hn
  cases hn

theorem readText_ne_of_below_eq_nil (h : d.below p = []) {names : List String} (hne : names ≠ [])
    (hq : d.resolve q = d.resolve p ++ names) : d.readText q ≠ .ok text := by
  intro hread
  obtain ⟨-, mode, hfind⟩ := readText_eq_ok_iff.1 hread
  have hnode := (find_eq_ok_iff.1 hfind).2
  rw [hq, node?_of_below_eq_nil h hne] at hnode
  cases hnode

end Disk

end DeviceAccess
