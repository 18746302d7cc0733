/-
  SmaliSieve.Proofs.Disassembly.Located

  Files that are found by the name of a class, against files that are listed by their extension.

  A file that is found by the name of its class is one of the files of the disassembly, and its
  name ends with a dot and the extension of the layout, or has no dot at all if that extension is
  empty (`exists_located`). The list takes a file by what stands behind the last dot of its
  name. The two are the same for an extension that has no dot in it and is not empty, and for no
  other one (`locate_mem_sources_iff`).
-/

import SmaliSieve.Proofs.Disassembly.Confinement

namespace SmaliSieve.Disassembly

open Smali

variable {layout : Layout} {disk : Disk} {base : Path}

/-! ## Extensions -/

/-- Behind a stem without dots, an extension that is written there is the one that is read back
    exactly if it is not empty and has no dot either. -/
theorem splitExtension_dottedExtension_iff {stem : List Char} (hne : stem ≠ [])
    (hdot : '.' ∉ stem) (extension : String) :
    (Path.splitExtension (stem ++ dottedExtension extension)).2 = some extension.toList ↔
      extension ≠ "" ∧ '.' ∉ extension.toList := by
  rw [Path.splitExtension_eq_some_iff, dottedExtension]
  by_cases hempty : extension = ""
  · -- nothing is written, so there is no dot behind which something could be read
    subst hempty
    constructor
    · rintro ⟨front, -, -, hname⟩
      have hmem : '.' ∈ stem ++ ([] : List Char) := hname ▸ by simp
      rw [List.append_nil] at hmem
      exact absurd hmem hdot
    · rintro ⟨hext, -⟩
      exact absurd rfl hext
  · have hisEmpty : extension.toList.isEmpty = false := by simpa using hempty
    rw [hisEmpty]
    constructor
    · rintro ⟨-, -, hext, -⟩
      exact ⟨hempty, hext⟩
    · rintro ⟨-, hext⟩
      exact ⟨stem, hne, hext, rfl⟩

/-! ## What is found -/

theorem mem_sources_iff {path : Path} :
    path ∈ (sources layout disk base).value ↔
      path ∈ (filesOf (roots layout disk base).value).map (·.1) ∧
        path.extension? = some layout.extension.toList := by
  show path ∈ ((filesOf (roots layout disk base).value).map (·.1)).filter _ ↔ _
  rw [List.mem_filter, decide_eq_true_iff]

/-- No file stands at a path with nothing but a separator at its end. -/
theorem isFile_join_nil {root : Path} (hne : root.chars ≠ []) :
    disk.isFile (root.join []) = false := by
  rw [Disk.isFile]
  cases hfind : disk.find (root.join []) with
  | error error => rfl
  | ok tree =>
    obtain ⟨place, hplace, htree⟩ := Disk.find_eq_ok_iff.mp hfind
    obtain ⟨-, entries, hfolder⟩ := Disk.locate_join_nil hne hplace
    obtain rfl : tree = .folder entries := Option.some.inj (htree.symm.trans hfolder)
    rfl

/-- A root has a path of its own. -/
theorem chars_ne_nil_of_mem_roots (proper : disk.Proper) {root : Path × FileTree}
    (h : root ∈ (roots layout disk base).value) : root.1.chars ≠ [] := by
  obtain ⟨entries, location, hbase, -, hpath, hlocation, -⟩ :=
    exists_place_of_mem_roots layout proper h
  intro hnil
  have hfront := Path.prefix_chars_joinAll base hlocation
  rw [← hpath, hnil] at hfront
  exact Disk.chars_ne_nil_of_find hbase (List.prefix_nil.mp hfront)

/-- A file at the end of names that are added to a root is one of the files of the
    disassembly. -/
theorem mem_filesOf_of_isFile (proper : disk.Proper) {root : Path × FileTree}
    (hroot : root ∈ (roots layout disk base).value) {names : List Name}
    (hnames : ∀ name ∈ names, Path.IsName name) (hfile : disk.isFile (root.1.joinAll names)) :
    root.1.joinAll names ∈ (filesOf (roots layout disk base).value).map (·.1) := by
  obtain ⟨-, -, -, -, -, -, hproper⟩ := exists_place_of_mem_roots layout proper hroot
  rw [Disk.isFile] at hfile
  cases hfind : disk.find (root.1.joinAll names) with
  | error error =>
    rw [hfind] at hfile
    cases hfile
  | ok tree =>
    rw [hfind] at hfile
    have hat : root.2.at? names = some tree := at?_of_find_root layout proper hroot hnames hfind
    exact List.mem_map.mpr ⟨(root.1.joinAll names, tree),
      List.mem_flatMap.mpr ⟨root, hroot, hproper.mem_filesBelow.mpr ⟨names, hat, hfile, rfl⟩⟩, rfl⟩

/-- The file that is found for a class is one of the files of the disassembly, and it has its name
    from a stem without dots and the extension. -/
theorem exists_located (proper : disk.Proper) {className : String}
    (hname : '/' ∉ className.toList) (hslash : '/' ∉ layout.extension.toList) {path : Path}
    (h : (locate layout disk base className).value = some (some path)) :
    ∃ stem, stem ≠ [] ∧ '.' ∉ stem ∧
      path.fileName? = some (stem ++ dottedExtension layout.extension) ∧
      path ∈ (filesOf (roots layout disk base).value).map (·.1) := by
  have hlocate : locateIn layout disk ((roots layout disk base).value.map (·.1)) className =
      some (some path) := h
  rw [locateIn, Option.map_eq_some_iff] at hlocate
  obtain ⟨relative, hrelative, hfind⟩ := hlocate
  -- the path was made from one of the roots, and a file is there
  obtain ⟨_, hjoined, rfl⟩ := List.mem_map.mp (List.mem_of_find?_eq_some hfind)
  obtain ⟨root, hroot, rfl⟩ := List.mem_map.mp hjoined
  have hfile : disk.isFile (root.1.join relative.chars) = true := List.find?_some hfind
  have hne : root.1.chars ≠ [] := chars_ne_nil_of_mem_roots proper hroot
  rcases sourcePath?_cases hname hslash with
    hnil | ⟨folders, stem, hfolders, hstem, hdot, hunit, hpath⟩
  · -- with nothing added the path of the root itself would lead to a file
    obtain rfl := Option.some.inj (hnil.symm.trans hrelative)
    rw [isFile_join_nil hne] at hfile
    cases hfile
  · obtain rfl := Option.some.inj (hpath.symm.trans hrelative)
    have hnames : ∀ name ∈ folders ++ [stem ++ dottedExtension layout.extension],
        Path.IsName name := List.forall_mem_append.mpr ⟨hfolders, by simpa using hunit⟩
    rw [join_joinAll_nil root.1 (by simp) hnames] at hfile ⊢
    refine ⟨stem, hstem, hdot, ?_, mem_filesOf_of_isFile proper hroot hnames hfile⟩
    rw [Path.joinAll_concat, Path.fileName?_join _ hunit]

/-! ## What is listed -/

/-- A file that is found by the name of its class is always a file of the disassembly whose name
    ends with the extension, and it is among the files that are listed by the extension exactly if
    the extension is not empty and has no dot. -/
theorem locate_mem_sources_iff (proper : disk.Proper) {className : String}
    (hname : '/' ∉ className.toList) (hslash : '/' ∉ layout.extension.toList) {path : Path}
    (h : (locate layout disk base className).value = some (some path)) :
    path ∈ (filesOf (roots layout disk base).value).map (·.1) ∧
      (∃ name, path.fileName? = some name ∧ dottedExtension layout.extension <:+ name) ∧
      (path ∈ (sources layout disk base).value ↔
        layout.extension ≠ "" ∧ '.' ∉ layout.extension.toList) := by
  obtain ⟨stem, hstem, hdot, hfileName, hmem⟩ := exists_located proper hname hslash h
  refine ⟨hmem, ⟨_, hfileName, List.suffix_append _ _⟩, ?_⟩
  have hextension : path.extension? =
      (Path.splitExtension (stem ++ dottedExtension layout.extension)).2 := by
    rw [Path.extension?, hfileName, Option.bind_some]
  rw [mem_sources_iff, hextension, splitExtension_dottedExtension_iff hstem hdot]
  exact and_iff_right hmem

/-- A decompiled tree with a class in a root, its file twice: with an extension of one part and
    with one of two parts. -/
def partedDisk : Disk :=
  ⟨[("app".toList, .folder
    [("smali".toList, .folder
      [("a".toList, .folder
        [("B.smali".toList, .file .empty false),
         ("B.smali.txt".toList, .file .empty false)])])])], []⟩

theorem proper_partedDisk : partedDisk.Proper :=
  .cons (by decide) (by decide)
    (.cons (by decide) (by decide)
      (.cons (by decide) (by decide)
        (.cons (by decide) (by decide) (.file _ _)
          (.cons (by decide) (by decide) (.file _ _) .nil)) .nil) .nil) .nil

/-- With an extension of one part the file is listed, also if the name has dots to spare. -/
theorem locate_mem_sources_partedDisk :
    let base := Path.ofString "app"
    let path := Path.ofString "app/smali/a/B.smali"
    partedDisk.Proper ∧ '/' ∉ ".a..B.".toList ∧ '/' ∉ Layout.usual.extension.toList ∧
      (locate .usual partedDisk base ".a..B.").value = some (some path) ∧
      path ∈ (filesOf (roots .usual partedDisk base).value).map (·.1) ∧
      (∃ name, path.fileName? = some name ∧ dottedExtension Layout.usual.extension <:+ name) ∧
      path ∈ (sources .usual partedDisk base).value := by
  intro base path
  have hname : '/' ∉ ".a..B.".toList := by decide
  have hslash : '/' ∉ Layout.usual.extension.toList := by decide
  have hfound : (locate .usual partedDisk base ".a..B.").value = some (some path) := by
    decide +kernel
  obtain ⟨hmem, hfileName, hlisted⟩ := locate_mem_sources_iff proper_partedDisk hname hslash hfound
  exact ⟨proper_partedDisk, hname, hslash, hfound, hmem, hfileName, hlisted.mpr (by decide)⟩

/-- With an extension of two parts the file is found and not listed, although its name ends with
    the extension. -/
theorem located_not_listed :
    let layout : Layout := ⟨"smali", "smali.txt"⟩
    let base := Path.ofString "app"
    let path := Path.ofString "app/smali/a/B.smali.txt"
    partedDisk.Proper ∧ '/' ∉ "a.B".toList ∧ '/' ∉ layout.extension.toList ∧
      (locate layout partedDisk base "a.B").value = some (some path) ∧
      path ∈ (filesOf (roots layout partedDisk base).value).map (·.1) ∧
      path ∉ (sources layout partedDisk base).value ∧
      (sources layout partedDisk base).value = [] := by
  intro layout base path
  have hsources : (sources layout partedDisk base).value = [] := by decide +kernel
  refine ⟨proper_partedDisk, by decide, by decide, by decide +kernel, by decide +kernel, ?_,
    hsources⟩
  rw [hsources]
  exact List.not_mem_nil

end SmaliSieve.Disassembly
