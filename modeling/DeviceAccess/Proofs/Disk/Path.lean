import DeviceAccess.Disk.Basic

/-!
# Places below a directory

The place of a plain name in a directory is the directory's place with the name at its end
(`Disk.resolve_join`), however the directory's path is written.  So files of different names are at
different places.
-/

namespace DeviceAccess

/-- A name that leads from a directory to something in it. -/
structure Path.IsPlain (name : String) : Prop where
  ne_empty : name ≠ ""
  ne_dot : name ≠ "."
  ne_dots : name ≠ ".."
  no_slash : '/' ∉ name.toList

namespace Path

variable {p : Path} {name : String}

/-- Whether a component of a path counts. -/
def counts (part : String) : Bool := part ≠ "" ∧ part ≠ "."

/-- The components, by the parts that slashes divide the path's text into. -/
theorem components_eq (p : Path) (parts : List (List Char))
    (h : p.text.toList.splitOn '/' = parts) :
    p.components =
      (if p.isAbsolute then ["/"] else if (parts.map String.ofList).head? = some "." then ["."] else []) ++
        (parts.map String.ofList).filter counts := by
  subst h
  unfold components
  simp only
  split
  · rfl
  · split
    · rfl
    · rfl

theorem IsPlain.splitOn (h : IsPlain name) : name.toList.splitOn '/' = [name.toList] :=
  List.splitOn_eq_singleton h.no_slash

theorem IsPlain.counts (h : IsPlain name) : Path.counts name = true := by
  simp [Path.counts, h.ne_empty, h.ne_dot]

/-- Behind a text that is empty but for slashes at its end, a plain name is one more component. -/
theorem components_of_toList {q : Path} {before : List Char} (h : IsPlain name)
    (hq : q.text.toList = before ++ '/' :: name.toList)
    (hp : p.text.toList = before ++ ['/'] ∨ (p.text.toList = before ∧ before ≠ [])) :
    q.components = p.components ++ [name] ∧ q.isAbsolute = p.isAbsolute := by
  have habsolute : q.isAbsolute = p.isAbsolute := by
    unfold isAbsolute
    rcases hp with hp | ⟨hp, hne⟩
    · rw [hq, hp]
      cases before with
      | nil => rfl
      | cons c before => rfl
    · rw [hq, hp]
      cases before with
      | nil => exact absurd rfl hne
      | cons c before => rfl
  have hqparts : q.text.toList.splitOn '/' = before.splitOn '/' ++ [name.toList] := by
    rw [hq, List.splitOn_append_cons_self, h.splitOn]
  refine ⟨?_, habsolute⟩
  have hhead : ∀ last, ((before.splitOn '/' ++ [last]).map String.ofList).head? =
      ((before.splitOn '/').map String.ofList).head? := by
    intro last
    obtain ⟨first, rest, hparts⟩ := List.exists_cons_of_ne_nil (List.splitOn_ne_nil '/' before)
    rw [hparts]
    rfl
  have hfilter : ∀ last, ((before.splitOn '/' ++ [last]).map String.ofList).filter counts =
      ((before.splitOn '/').map String.ofList).filter counts ++ [String.ofList last].filter counts := by
    intro last
    rw [List.map_append, List.filter_append]
    rfl
  rw [components_eq q _ hqparts, habsolute, hhead, hfilter, String.ofList_toList,
    List.filter_cons_of_pos h.counts, List.filter_nil, ← List.append_assoc]
  rcases hp with hp | ⟨hp, -⟩
  · have hpparts : p.text.toList.splitOn '/' = before.splitOn '/' ++ [[]] := by
      rw [hp, List.splitOn_append_cons_self]
      rfl
    have hnone : [String.ofList []].filter counts = [] := rfl
    rw [components_eq p _ hpparts, hhead, hfilter, hnone, List.append_nil]
  · rw [components_eq p _ (congrArg _ hp)]

theorem components_join (p : Path) (h : IsPlain name) :
    (p.join name).components = p.components ++ [name] ∧
      (p.join name).isAbsolute = p.isAbsolute := by
  have hslash : name.toList.head? ≠ some '/' := fun hslash =>
    h.no_slash (List.mem_of_mem_head? hslash)
  unfold join
  rw [if_neg hslash]
  by_cases hempty : p.text = ""
  · obtain rfl : p = ⟨""⟩ := by rw [← hempty]
    have habsolute : (⟨name⟩ : Path).isAbsolute = false := by
      unfold isAbsolute
      simpa using hslash
    have hcomponents : (⟨name⟩ : Path).components = [name] := by
      rw [components_eq ⟨name⟩ _ h.splitOn, habsolute]
      simp [h.counts, h.ne_dot]
    have hjoined : (⟨"" ++ name⟩ : Path) = ⟨name⟩ := by rw [String.empty_append]
    rw [if_pos (by simp), hjoined, hcomponents, habsolute]
    exact ⟨rfl, rfl⟩
  · by_cases hlast : p.text.toList.getLast? = some '/'
    · obtain ⟨before, hbefore⟩ := List.getLast?_eq_some_iff.1 hlast
      rw [if_pos (by simp [hlast])]
      exact components_of_toList h (by rw [String.toList_append, hbefore, List.append_assoc]; rfl)
        (.inl hbefore)
    · rw [if_neg (by simp [hempty, hlast])]
      refine components_of_toList h ?_ (.inr ⟨rfl, by simpa using hempty⟩)
      rw [String.toList_append, String.toList_append, List.append_assoc]
      rfl

end Path

namespace Disk

/-- The place of a plain name in a directory. -/
theorem resolve_join (d : Disk) (p : Path) {name : String} (h : Path.IsPlain name) :
    d.resolve (p.join name) = d.resolve p ++ [name] := by
  obtain ⟨hcomponents, habsolute⟩ := Path.components_join p h
  have hroot : name ≠ "/" := by
    rintro rfl
    exact h.no_slash (by decide)
  unfold resolve
  rw [hcomponents, habsolute, List.foldl_append, List.foldl_cons, List.foldl_nil]
  simp only [hroot, h.ne_dot, h.ne_dots, or_self, if_false]

/-- Places depend on nothing of a disk but the directory that relative paths start from. -/
theorem resolve_congr {d d' : Disk} (h : d'.current = d.current) (p : Path) :
    d'.resolve p = d.resolve p := by
  unfold resolve
  rw [h]

end Disk

end DeviceAccess
