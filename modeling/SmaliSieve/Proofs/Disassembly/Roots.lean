/-
  SmaliSieve.Proofs.Disassembly.Roots

  Which folders of a tree are disassembly roots, said without walking through it.

  On the way down into a tree the first folder with a marked name is a root, and what is
  below it is not looked at (`mem_rootsIn`). So the paths of two roots always part
  (`rootsIn_pairwise`), and the way to a folder with a marked name leads through one root and
  no other, which may be the folder itself (`existsUnique_rootsIn`).
-/

import SmaliSieve.Proofs.Disassembly.Files

namespace SmaliSieve.Disassembly

variable (layout : Layout)

/-! ## The first marked name -/

/-- The last of the names is marked, and it is the only one that is. -/
def Topmost : List Name → Prop
  | [] => False
  | name :: rest => if layout.marks name then rest = [] else Topmost rest

theorem topmost_cons_of_marks {name : Name} (h : layout.marks name = true) (rest : List Name) :
    Topmost layout (name :: rest) ↔ rest = [] := by
  rw [Topmost, if_pos h]

theorem topmost_cons_of_not_marks {name : Name} (h : ¬ layout.marks name = true)
    (rest : List Name) : Topmost layout (name :: rest) ↔ Topmost layout rest := by
  rw [Topmost, if_neg h]

/-- Names of which one is marked go as far as the first that is, and then further. -/
theorem exists_topmost {names : List Name} (h : ∃ name ∈ names, layout.marks name = true) :
    ∃ above, above <+: names ∧ Topmost layout above := by
  induction names with
  | nil => simp at h
  | cons name rest ih =>
    by_cases hmark : layout.marks name = true
    · exact ⟨[name], by simp, (topmost_cons_of_marks layout hmark []).mpr rfl⟩
    · have hrest : ∃ name ∈ rest, layout.marks name = true := by simpa [hmark] using h
      obtain ⟨above, hfront, htop⟩ := ih hrest
      exact ⟨name :: above, List.cons_prefix_cons.mpr ⟨rfl, hfront⟩,
        (topmost_cons_of_not_marks layout hmark above).mpr htop⟩

theorem Topmost.getLast? {names : List Name} (h : Topmost layout names) :
    ∃ name, names.getLast? = some name ∧ layout.marks name = true := by
  induction names with
  | nil => cases h
  | cons name rest ih =>
    by_cases hmark : layout.marks name = true
    · obtain rfl := (topmost_cons_of_marks layout hmark rest).mp h
      exact ⟨name, rfl, hmark⟩
    · obtain ⟨last, hlast, hmarks⟩ := ih ((topmost_cons_of_not_marks layout hmark rest).mp h)
      exact ⟨last, by simp [List.getLast?_cons, hlast], hmarks⟩

/-! ## Roots by their places -/

theorem rootsIn_eq_flatMap (path : Path) (entries : List (Name × FileTree)) :
    rootsIn layout path entries =
      entries.flatMap fun entry => rootsAt layout entry.1 (path.join entry.1) entry.2 := by
  induction entries with
  | nil => rfl
  | cons entry rest ih => rw [rootsIn, ih, List.flatMap_cons]

theorem mem_rootsAt_of_leaf {tree : FileTree} (h : tree.isFolder = false) {name : Name}
    {path : Path} {root : Path × FileTree} :
    root ∈ rootsAt layout name path tree ↔
      ∃ location, tree.at? location = some root.2 ∧
        root.2.isFolder ∧ root.1 = path.joinAll location ∧ Topmost layout (name :: location) := by
  rw [rootsAt_of_leaf layout name path h]
  refine ⟨fun hmem => absurd hmem List.not_mem_nil, ?_⟩
  rintro ⟨location, hfound, hfolder, -, -⟩
  rw [FileTree.isFolder_of_at? hfound hfolder] at h
  cases h

/-- The roots in an entry of the given name are the folders for which the names from that of
    the entry downwards end with the first marked one. -/
theorem mem_rootsAt {tree : FileTree} (proper : tree.Proper) {name : Name} {path : Path}
    {root : Path × FileTree} :
    root ∈ rootsAt layout name path tree ↔
      ∃ location, tree.at? location = some root.2 ∧
        root.2.isFolder ∧ root.1 = path.joinAll location ∧ Topmost layout (name :: location) := by
  induction proper generalizing name path with
  | file contents runnable => exact mem_rootsAt_of_leaf layout rfl
  | device reading writing => exact mem_rootsAt_of_leaf layout rfl
  | @folder entries distinct names trees ih =>
    rw [rootsAt]
    split
    · next hmark =>
      simp only [topmost_cons_of_marks layout hmark]
      constructor
      · intro h
        rw [List.mem_singleton.mp h]
        exact ⟨[], rfl, rfl, rfl, rfl⟩
      · rintro ⟨location, hfound, -, hpath, rfl⟩
        rw [FileTree.at?_nil, Option.some.injEq] at hfound
        exact List.mem_singleton.mpr (Prod.ext hpath hfound.symm)
    · next hmark =>
      simp only [topmost_cons_of_not_marks layout hmark]
      rw [rootsIn_eq_flatMap, List.mem_flatMap,
        FileTree.exists_at?_folder distinct fun _ h => h.2.2]
      exact exists_congr fun entry => and_congr_right fun hentry => ih entry hentry

/-- The roots below a folder are the folders at those places whose last name, and no name
    before it, is marked. -/
theorem mem_rootsIn {entries : List (Name × FileTree)}
    (proper : (FileTree.folder entries).Proper) {path : Path} {root : Path × FileTree} :
    root ∈ rootsIn layout path entries ↔
      ∃ location, (FileTree.folder entries).at? location = some root.2 ∧
        root.2.isFolder ∧ root.1 = path.joinAll location ∧ Topmost layout location := by
  cases proper with
  | folder distinct names trees =>
    rw [rootsIn_eq_flatMap, List.mem_flatMap,
      FileTree.exists_at?_folder distinct fun _ h => h.2.2]
    exact exists_congr fun entry => and_congr_right fun hentry =>
      mem_rootsAt layout (trees entry hentry)

/-! ## Roots part -/

theorem prefix_of_mem_rootsAt {tree : FileTree} (proper : tree.Proper) {name : Name}
    {path : Path} {root : Path × FileTree} (h : root ∈ rootsAt layout name path tree) :
    path.components <+: root.1.components := by
  obtain ⟨location, hfound, -, hpath, -⟩ := (mem_rootsAt layout proper).mp h
  rw [hpath]
  exact path.prefix_joinAll (proper.at? hfound).2

theorem rootsIn_pairwise_of_entries {entries : List (Name × FileTree)}
    (distinct : (entries.map (·.1)).Nodup) (names : ∀ entry ∈ entries, Path.IsName entry.1)
    (trees : ∀ entry ∈ entries, entry.2.Proper) {path : Path}
    (h : ∀ entry ∈ entries, (rootsAt layout entry.1 (path.join entry.1) entry.2).Pairwise
      fun a b => a.1.Apart b.1) :
    (rootsIn layout path entries).Pairwise fun a b => a.1.Apart b.1 := by
  rw [rootsIn_eq_flatMap, List.pairwise_flatMap]
  refine ⟨h, ?_⟩
  have hdistinct : entries.Pairwise fun a b => a.1 ≠ b.1 := List.pairwise_map.mp distinct
  refine hdistinct.imp_of_mem ?_
  intro first second hfirst hsecond hne a ha b hb
  exact Path.Apart.of_join (names first hfirst) (names second hsecond) hne
    (prefix_of_mem_rootsAt layout (trees first hfirst) ha)
    (prefix_of_mem_rootsAt layout (trees second hsecond) hb)

theorem rootsAt_pairwise {tree : FileTree} (proper : tree.Proper) (name : Name) (path : Path) :
    (rootsAt layout name path tree).Pairwise fun a b => a.1.Apart b.1 := by
  induction proper generalizing name path with
  | file contents runnable | device reading writing =>
    rw [rootsAt_of_leaf layout name path rfl]
    exact List.Pairwise.nil
  | @folder entries distinct names trees ih =>
    rw [rootsAt]
    split
    · exact List.pairwise_singleton _ _
    · exact rootsIn_pairwise_of_entries layout distinct names trees fun entry hmem =>
        ih entry hmem _ _

/-- No root is another one or lies in it. -/
theorem rootsIn_pairwise {entries : List (Name × FileTree)}
    (proper : (FileTree.folder entries).Proper) (path : Path) :
    (rootsIn layout path entries).Pairwise fun a b => a.1.Apart b.1 := by
  cases proper with
  | folder distinct names trees =>
    exact rootsIn_pairwise_of_entries layout distinct names trees fun entry hmem =>
      rootsAt_pairwise layout (trees entry hmem) _ _

/-- Roots at or above one and the same place are one root. -/
theorem eq_of_mem_rootsIn {entries : List (Name × FileTree)}
    (proper : (FileTree.folder entries).Proper) {path below : Path} {root other : Path × FileTree}
    (hroot : root ∈ rootsIn layout path entries) (hother : other ∈ rootsIn layout path entries)
    (habove : root.1.components <+: below.components)
    (habove' : other.1.components <+: below.components) : root = other := by
  by_contra hne
  have hsymm : Std.Symm fun a b : Path × FileTree => a.1.Apart b.1 := ⟨fun _ _ h => h.symm⟩
  have hpart : root.1.Apart other.1 :=
    (rootsIn_pairwise layout proper path).forall hroot hother hne
  rcases List.prefix_or_prefix_of_prefix habove habove' with h | h
  · exact hpart.1 h
  · exact hpart.2 h

/-- The way to a folder with a marked name leads through one root. -/
theorem existsUnique_rootsIn {entries : List (Name × FileTree)}
    (proper : (FileTree.folder entries).Proper) (path : Path) {location : List Name}
    {found : FileTree} (hfound : (FileTree.folder entries).at? location = some found)
    (hfolder : found.isFolder) (hmark : ∃ name ∈ location, layout.marks name = true) :
    ∃! root, root ∈ rootsIn layout path entries ∧
      root.1.components <+: (path.joinAll location).components := by
  obtain ⟨above, ⟨below, rfl⟩, htop⟩ := exists_topmost layout hmark
  rw [FileTree.at?_append, Option.bind_eq_some_iff] at hfound
  obtain ⟨root, hroot, hbelow⟩ := hfound
  have hmem : (path.joinAll above, root) ∈ rootsIn layout path entries :=
    (mem_rootsIn layout proper).mpr
      ⟨above, hroot, FileTree.isFolder_of_at? hbelow hfolder, rfl, htop⟩
  have hnames : ∀ name ∈ above ++ below, Path.IsName name :=
    List.forall_mem_append.mpr ⟨(proper.at? hroot).2, ((proper.at? hroot).1.at? hbelow).2⟩
  have hfront : (path.joinAll above).components <+: (path.joinAll (above ++ below)).components := by
    rw [Path.joinAll, Path.joinAll, List.foldl_append]
    exact Path.prefix_joinAll _ (List.forall_mem_append.mp hnames).2
  refine ⟨(path.joinAll above, root), ⟨hmem, hfront⟩, ?_⟩
  rintro other ⟨hother, habove⟩
  exact eq_of_mem_rootsIn layout proper hother hmem habove hfront

end SmaliSieve.Disassembly
