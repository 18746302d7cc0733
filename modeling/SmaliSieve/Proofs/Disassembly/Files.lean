/-
  SmaliSieve.Proofs.Disassembly.Files

  Which files belong to the disassembly of a tree, said without walking through it.

  A file is found exactly if one of the folders on the way to it has a marked name
  (`mem_filesOf_rootsIn`), and it is found once: no two of the files have paths with the same
  components (`filesOf_rootsIn_pairwise`). Both hold for every order in which folders are
  enumerated, so the order decides only in which order the files come
  (`filesOf_rootsIn_perm`).
-/

import Mathlib.Data.List.Perm.Basic
import SmaliSieve.Disassembly.Collect
import SmaliSieve.Proofs.Smali.Arrival
import SmaliSieve.Proofs.Tree.Reordering

namespace SmaliSieve

namespace FileTree

/-! ## All files of a tree -/

theorem entryNodes_eq_flatMap (path : Path) (entries : List (Name × FileTree)) :
    entryNodes path entries = entries.flatMap fun entry => entry.2.nodes (path.join entry.1) := by
  induction entries with
  | nil => rfl
  | cons entry rest ih => rw [entryNodes, ih, List.flatMap_cons]

theorem filesBelow_file (path : Path) (contents : ByteArray) (runnable : Bool) :
    (file contents runnable).filesBelow path = [(path, .file contents runnable)] := rfl

theorem filesBelow_device (path : Path) (reading : Except OsError ByteArray)
    (writing : Except OsError Unit) : (device reading writing).filesBelow path = [] := rfl

theorem filesBelow_folder (path : Path) (entries : List (Name × FileTree)) :
    (folder entries).filesBelow path =
      entries.flatMap fun entry => entry.2.filesBelow (path.join entry.1) := by
  rw [filesBelow, nodes, List.filter_cons_of_neg (by simp [isFile]), entryNodes_eq_flatMap,
    List.filter_flatMap]
  rfl

/-- What stands in a folder, and is not the folder itself, stands in one of its entries, at a
    place that starts with the name of the entry. -/
theorem exists_at?_folder {entries : List (Name × FileTree)}
    (distinct : (entries.map (·.1)).Nodup) {found : FileTree} {P : List Name → Prop}
    (hself : folder entries = found → ¬ P []) :
    (∃ location, (folder entries).at? location = some found ∧ P location) ↔
      ∃ entry ∈ entries, ∃ location,
        entry.2.at? location = some found ∧ P (entry.1 :: location) := by
  constructor
  · rintro ⟨location, hfound, hP⟩
    cases location with
    | nil =>
      rw [at?_nil, Option.some.injEq] at hfound
      exact absurd hP (hself hfound)
    | cons name more =>
      rw [at?_folder, Option.bind_eq_some_iff] at hfound
      obtain ⟨tree, hlookup, hmore⟩ := hfound
      exact ⟨(name, tree), (lookup_eq_some_iff_mem distinct).mp hlookup, more, hmore, hP⟩
  · rintro ⟨⟨name, tree⟩, hentry, location, hfound, hP⟩
    refine ⟨name :: location, ?_, hP⟩
    rw [at?_folder, (lookup_eq_some_iff_mem distinct).mpr hentry, Option.bind_some, hfound]

/-- A folder is not a file of its own. -/
theorem folder_ne_of_isFile {entries : List (Name × FileTree)} {found : FileTree} {P : Prop}
    (h : folder entries = found) : ¬ (found.isFile ∧ P) := by
  rintro ⟨hfile, -⟩
  rw [← h] at hfile
  cases hfile

/-- The files of a proper tree are what stands in it and is a file. -/
theorem Proper.mem_filesBelow {tree : FileTree} (proper : tree.Proper) {path : Path}
    {found : Path × FileTree} :
    found ∈ tree.filesBelow path ↔
      ∃ location, tree.at? location = some found.2 ∧
        found.2.isFile ∧ found.1 = path.joinAll location := by
  induction proper generalizing path with
  | file contents runnable =>
    rw [filesBelow_file, List.mem_singleton]
    constructor
    · rintro rfl
      exact ⟨[], rfl, rfl, rfl⟩
    · rintro ⟨location, hfound, -, hpath⟩
      obtain ⟨rfl, hself⟩ := (at?_eq_some_iff_of_leaf rfl).mp hfound
      exact Prod.ext hpath hself.symm
  | device reading writing =>
    rw [filesBelow_device]
    refine ⟨fun h => absurd h List.not_mem_nil, ?_⟩
    rintro ⟨location, hfound, hfile, -⟩
    rw [← ((at?_eq_some_iff_of_leaf rfl).mp hfound).2] at hfile
    cases hfile
  | folder distinct names trees ih =>
    rw [filesBelow_folder, List.mem_flatMap, exists_at?_folder distinct folder_ne_of_isFile]
    exact exists_congr fun entry => and_congr_right fun hentry => ih entry hentry

/-- The path of a file below a folder goes on with the names that lead to it. -/
theorem Proper.prefix_of_mem_filesBelow {tree : FileTree} (proper : tree.Proper) {path : Path}
    {found : Path × FileTree} (h : found ∈ tree.filesBelow path) :
    path.components <+: found.1.components := by
  obtain ⟨location, hfound, -, hpath⟩ := proper.mem_filesBelow.mp h
  rw [hpath]
  exact path.prefix_joinAll (proper.at? hfound).2

/-- No two files of a proper tree have paths with the same components. -/
theorem Proper.filesBelow_pairwise {tree : FileTree} (proper : tree.Proper) (path : Path) :
    (tree.filesBelow path).Pairwise fun a b => a.1.components ≠ b.1.components := by
  induction proper generalizing path with
  | file contents runnable => exact List.pairwise_singleton _ _
  | device reading writing => exact List.Pairwise.nil
  | @folder entries distinct names trees ih =>
    rw [filesBelow_folder, List.pairwise_flatMap]
    refine ⟨fun entry hmem => ih entry hmem _, ?_⟩
    have hdistinct : entries.Pairwise fun a b => a.1 ≠ b.1 := List.pairwise_map.mp distinct
    refine hdistinct.imp_of_mem ?_
    intro first second hfirst hsecond hne a ha b hb
    -- the paths part at the names of the two entries
    exact (Path.Apart.of_join (names first hfirst) (names second hsecond) hne
      ((trees first hfirst).prefix_of_mem_filesBelow ha)
      ((trees second hsecond).prefix_of_mem_filesBelow hb)).ne

end FileTree

namespace Disassembly

open Smali

variable (layout : Layout)

/-! ## The files of the disassembly roots -/

theorem filesOf_append (first second : List (Path × FileTree)) :
    filesOf (first ++ second) = filesOf first ++ filesOf second :=
  List.flatMap_append

theorem rootsAt_of_leaf (name : Name) (path : Path) {tree : FileTree}
    (h : tree.isFolder = false) : rootsAt layout name path tree = [] := by
  cases tree with
  | folder entries => cases h
  | file contents runnable => rfl
  | device reading writing => rfl

theorem filesOf_rootsAt_folder (name : Name) (path : Path) (entries : List (Name × FileTree)) :
    filesOf (rootsAt layout name path (.folder entries)) =
      if layout.marks name then (FileTree.folder entries).filesBelow path
      else filesOf (rootsIn layout path entries) := by
  rw [rootsAt]
  split
  · exact List.flatMap_singleton _ _
  · rfl

theorem filesOf_rootsIn (path : Path) (entries : List (Name × FileTree)) :
    filesOf (rootsIn layout path entries) = entries.flatMap fun entry =>
      filesOf (rootsAt layout entry.1 (path.join entry.1) entry.2) := by
  induction entries with
  | nil => rfl
  | cons entry rest ih => rw [rootsIn, filesOf_append, ih, List.flatMap_cons]

mutual

/-- Nothing but files of the tree is found, each where it stands among them. -/
theorem filesOf_rootsAt_sublist (name : Name) (path : Path) :
    (tree : FileTree) → (filesOf (rootsAt layout name path tree)).Sublist (tree.filesBelow path)
  | .file .. | .device .. => List.nil_sublist _
  | .folder entries => by
    rw [filesOf_rootsAt_folder]
    split
    · exact List.Sublist.refl _
    · rw [FileTree.filesBelow_folder]
      exact filesOf_rootsIn_sublist path entries

theorem filesOf_rootsIn_sublist (path : Path) :
    (entries : List (Name × FileTree)) → (filesOf (rootsIn layout path entries)).Sublist
      (entries.flatMap fun entry => entry.2.filesBelow (path.join entry.1))
  | [] => List.nil_sublist _
  | (name, tree) :: rest => by
    rw [rootsIn, filesOf_append, List.flatMap_cons]
    exact (filesOf_rootsAt_sublist name (path.join name) tree).append
      (filesOf_rootsIn_sublist path rest)

end

/-- There is nothing below what is no folder, and the way to itself goes through none. -/
theorem mem_filesOf_rootsAt_of_leaf {tree : FileTree} (h : tree.isFolder = false) {name : Name}
    {path : Path} {found : Path × FileTree} :
    found ∈ filesOf (rootsAt layout name path tree) ↔
      ∃ location, tree.at? location = some found.2 ∧
        found.2.isFile ∧ found.1 = path.joinAll location ∧
        ∃ folder ∈ (name :: location).dropLast, layout.marks folder := by
  rw [rootsAt_of_leaf layout name path h]
  refine ⟨fun hmem => absurd hmem List.not_mem_nil, ?_⟩
  rintro ⟨location, hfound, -, -, folder, hfolder, -⟩
  obtain ⟨rfl, -⟩ := (FileTree.at?_eq_some_iff_of_leaf h).mp hfound
  cases hfolder

/-- In an entry of the given name, a file is found exactly if the entry or a folder on the
    way from there to the file is marked. -/
theorem mem_filesOf_rootsAt {tree : FileTree} (proper : tree.Proper) {name : Name} {path : Path}
    {found : Path × FileTree} :
    found ∈ filesOf (rootsAt layout name path tree) ↔
      ∃ location, tree.at? location = some found.2 ∧
        found.2.isFile ∧ found.1 = path.joinAll location ∧
        ∃ folder ∈ (name :: location).dropLast, layout.marks folder := by
  induction proper generalizing name path with
  | file contents runnable => exact mem_filesOf_rootsAt_of_leaf layout rfl
  | device reading writing => exact mem_filesOf_rootsAt_of_leaf layout rfl
  | @folder entries distinct names trees ih =>
    rw [filesOf_rootsAt_folder]
    split
    · next hmark =>
      -- all files of a marked folder are found, and none of them is the folder itself
      rw [(FileTree.Proper.folder distinct names trees).mem_filesBelow,
        FileTree.exists_at?_folder distinct FileTree.folder_ne_of_isFile,
        FileTree.exists_at?_folder distinct FileTree.folder_ne_of_isFile]
      simp [hmark]
    · next hmark =>
      rw [filesOf_rootsIn, List.mem_flatMap,
        FileTree.exists_at?_folder distinct FileTree.folder_ne_of_isFile]
      simp only [List.dropLast_cons_cons, List.exists_mem_cons_iff, hmark, Bool.false_eq_true,
        false_or]
      exact exists_congr fun entry => and_congr_right fun hentry => ih entry hentry

/-- A file is found exactly if a folder on the way to it is marked. -/
theorem mem_filesOf_rootsIn {entries : List (Name × FileTree)}
    (proper : (FileTree.folder entries).Proper) {path : Path} {found : Path × FileTree} :
    found ∈ filesOf (rootsIn layout path entries) ↔
      ∃ location, (FileTree.folder entries).at? location = some found.2 ∧
        found.2.isFile ∧ found.1 = path.joinAll location ∧
        ∃ folder ∈ location.dropLast, layout.marks folder := by
  cases proper with
  | folder distinct names trees =>
    rw [filesOf_rootsIn, List.mem_flatMap,
      FileTree.exists_at?_folder distinct FileTree.folder_ne_of_isFile]
    exact exists_congr fun entry => and_congr_right fun hentry =>
      mem_filesOf_rootsAt layout (trees entry hentry)

theorem filesOf_rootsIn_pairwise {entries : List (Name × FileTree)}
    (proper : (FileTree.folder entries).Proper) (path : Path) :
    (filesOf (rootsIn layout path entries)).Pairwise fun a b =>
      a.1.components ≠ b.1.components := by
  have hall := proper.filesBelow_pairwise path
  rw [FileTree.filesBelow_folder] at hall
  exact hall.sublist (filesOf_rootsIn_sublist layout path entries)

/-- Folders that hold the same have the same files, though perhaps in another order. -/
theorem filesOf_rootsIn_perm {entries others : List (Name × FileTree)}
    (proper : (FileTree.folder entries).Proper) (proper' : (FileTree.folder others).Proper)
    (alike : (FileTree.folder entries).Alike (.folder others)) (path : Path) :
    (filesOf (rootsIn layout path entries)).Perm (filesOf (rootsIn layout path others)) := by
  have hnodup : ∀ {entries : List (Name × FileTree)}, (FileTree.folder entries).Proper →
      (filesOf (rootsIn layout path entries)).Nodup := by
    intro entries proper
    apply (filesOf_rootsIn_pairwise layout proper path).imp
    rintro a b hne rfl
    exact hne rfl
  rw [List.perm_ext_iff_of_nodup (hnodup proper) (hnodup proper')]
  intro found
  rw [mem_filesOf_rootsIn layout proper, mem_filesOf_rootsIn layout proper']
  -- a file that stands somewhere in one folder stands there in the other
  apply exists_congr
  intro location
  constructor
  · rintro ⟨hfound, hfile, hrest⟩
    exact ⟨alike.at?_eq_of_isFile hfound hfile, hfile, hrest⟩
  · rintro ⟨hfound, hfile, hrest⟩
    exact ⟨alike.symm.at?_eq_of_isFile hfound hfile, hfile, hrest⟩

/-! ## Reading a decompiled tree -/

theorem roots_of_folder {disk : Disk} {base : Path} {entries : List (Name × FileTree)}
    (h : disk.find base = .ok (.folder entries)) :
    (roots layout disk base).value = rootsIn layout base entries := by
  rw [roots, findRoots, h]

theorem findRoots_of_not_folder {disk : Disk} {base : Path}
    (h : ∀ entries, disk.find base ≠ .ok (.folder entries)) :
    findRoots layout disk base = .error (.missing .decompiledDirectory base) := by
  rw [findRoots]
  split
  · next entries hfolder => exact absurd hfolder (h entries)
  · rfl

theorem roots_of_not_folder {disk : Disk} {base : Path}
    (h : ∀ entries, disk.find base ≠ .ok (.folder entries)) :
    (roots layout disk base).value = [] := by
  rw [roots, findRoots_of_not_folder layout h]

theorem collect_value (disk : Disk) (base : Path) :
    (collect layout disk base).value = readable (filesOf (roots layout disk base).value) := rfl

theorem path_of_sourceFile? {path : Path} {tree : FileTree} {source : SourceFile}
    (h : (sourceFile? path tree).toOption = some source) : source.path = path := by
  rw [sourceFile?] at h
  cases htext : tree.read.bind Disk.textOf with
  | error cause =>
    rw [htext] at h
    cases h
  | ok text =>
    rw [htext] at h
    cases h
    rfl

/-- No two of the files that are read have paths with the same components. -/
theorem collect_pairwise {disk : Disk} (proper : disk.Proper) (base : Path) :
    (collect layout disk base).value.Pairwise fun a b => a.path.components ≠ b.path.components := by
  rw [collect_value, readable, List.pairwise_filterMap]
  by_cases h : ∃ entries, disk.find base = .ok (.folder entries)
  · obtain ⟨entries, hfolder⟩ := h
    rw [roots_of_folder layout hfolder]
    refine (filesOf_rootsIn_pairwise layout (proper.find hfolder) base).imp ?_
    intro first second hne a ha b hb
    rwa [path_of_sourceFile? ha, path_of_sourceFile? hb]
  · rw [roots_of_not_folder layout fun entries hfolder => h ⟨entries, hfolder⟩]
    exact List.Pairwise.nil

/-- The files that are read from a proper disk can be told apart. -/
theorem collect_distinguished {disk : Disk} (proper : disk.Proper) (base : Path) :
    Distinguished (collect layout disk base).value :=
  (collect_pairwise layout proper base).imp fun hne hsame => hne hsame.2

/-- The order in which folders are enumerated decides only in which order the files are read. -/
theorem collect_perm {disk other : Disk} (proper : disk.Proper) (h : disk.Reordered other)
    (base : Path) :
    (collect layout disk base).value.Perm (collect layout other base).value := by
  have halike : disk.Alike other := h.alike proper
  have hproper : other.Proper := h.root.proper proper
  rw [collect_value, collect_value]
  apply List.Perm.filterMap
  by_cases hbase : ∃ entries, disk.find base = .ok (.folder entries)
  · obtain ⟨entries, hfolder⟩ := hbase
    obtain ⟨found, hfound, hsame⟩ := halike.find hfolder
    obtain ⟨others, rfl⟩ := hsame.folder_right
    rw [roots_of_folder layout hfolder, roots_of_folder layout hfound]
    exact filesOf_rootsIn_perm layout (proper.find hfolder) (hproper.find hfound) hsame base
  · -- without a folder on the one disk there is none on the other
    have hother : ∀ others, other.find base ≠ .ok (.folder others) := by
      intro others hfolder
      obtain ⟨found, hfound, hsame⟩ := halike.symm.find hfolder
      obtain ⟨entries, rfl⟩ := hsame.folder_right
      exact hbase ⟨entries, hfound⟩
    rw [roots_of_not_folder layout fun entries hfolder => hbase ⟨entries, hfolder⟩,
      roots_of_not_folder layout hother]

end Disassembly

end SmaliSieve
