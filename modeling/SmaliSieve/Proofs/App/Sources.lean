/-
  SmaliSieve.Proofs.App.Sources

  The files of the classes of an application.

  The classes come out of the texts of files, their files are looked for by the names of the
  classes. In a tree that is `Arranged`, where each file is called after the class that it
  declares, both ways are inverse: a class is made of one file (`recordOf_of_unique`), and
  looking for the class finds that file (`Arranged.exists_source`). Filtering takes classes away and
  changes none, so each class that is left still has its file (`sourceFiles_filteredAll`).
-/

import SmaliSieve.Proofs.App.Filtering
import SmaliSieve.Proofs.Disassembly.ClassPath
import SmaliSieve.Proofs.Disassembly.Coverage
import SmaliSieve.Proofs.Smali.Naming

namespace SmaliSieve

namespace App

open Disassembly (Layout WellNamed fileFor locateIn)
open Smali

/-! ## Trees with a file for each class -/

/-- In the tree of the application each file that declares a class can be opened and is
    called after the class, below the root that it is in, and no two roots have a file at the
    same place. -/
structure Arranged (layout : Layout) (disk : Disk) (app : App) : Prop where
  readable : ∀ file ∈ app.filesOf layout disk, (declaredName? file.content).isSome →
    disk.readText file.path = .ok file.content
  placed : ∀ file ∈ app.filesOf layout disk, ∀ internal,
    declaredName? file.content = some internal → WellNamed internal ∧
      ∃ root ∈ (Disassembly.roots layout disk app.folder).value,
        file.path = root.1.join (fileFor internal layout.extension)
  apart : ∀ root ∈ (Disassembly.roots layout disk app.folder).value,
    ∀ other ∈ (Disassembly.roots layout disk app.folder).value, ∀ names : List Name,
      (root.2.at? names).any FileTree.isFile → (other.2.at? names).any FileTree.isFile →
        root = other

/-- The path leads to the file that declares the class, there is no other one that does, and
    its text is the content of the class. -/
def IsSource (layout : Layout) (disk : Disk) (app : App) (record : ClassRecord) (path : Path) :
    Prop :=
  ∃ file ∈ app.filesOf layout disk, file.path = path ∧
    (declaredName? file.content).map canonicalName = some record.className ∧
    file.content = record.content ∧ disk.readText path = .ok record.content ∧
    ∀ other ∈ app.filesOf layout disk,
      (declaredName? other.content).map canonicalName = some record.className → other = file

section Arranged

variable {layout : Layout} {disk : Disk} {app : App}

theorem exists_find_of_readText {path : Path} {text : String}
    (h : disk.readText path = .ok text) : ∃ tree, disk.find path = .ok tree := by
  rw [Disk.readText, Disk.readBytes] at h
  cases hfind : disk.find path with
  | error error =>
    rw [hfind] at h
    cases h
  | ok tree => exact ⟨tree, rfl⟩

/-- What can be read at the path of one of the files is this file. -/
theorem isFile_of_readText (proper : disk.Proper) {file : SourceFile}
    (hfile : file ∈ app.filesOf layout disk) {text : String}
    (h : disk.readText file.path = .ok text) : disk.isFile file.path := by
  obtain ⟨tree, hfind⟩ := exists_find_of_readText h
  by_cases hbase : ∃ entries, disk.find app.folder = .ok (.folder entries)
  · obtain ⟨entries, hfolder⟩ := hbase
    obtain ⟨front, name, _, ⟨⟨contents, runnable, hat, -⟩, -⟩, rfl⟩ :=
      (Disassembly.mem_collect layout proper hfolder).mp hfile
    have hsame := Disk.at?_of_find_joinAll hfolder ((proper.find hfolder).at? hat).2 hfind
    obtain rfl : .file contents runnable = tree := Option.some.inj (hat.symm.trans hsame)
    rw [Disk.isFile, hfind]
    rfl
  · have hnone : app.filesOf layout disk = [] := by
      rw [filesOf, Disassembly.collect_value, Disassembly.roots_of_not_folder layout
        fun entries hfolder => hbase ⟨entries, hfolder⟩]
      rfl
    rw [hnone] at hfile
    cases hfile

theorem any_isFile_of_isFile (proper : disk.Proper) {root : Path × FileTree}
    (hroot : root ∈ (Disassembly.roots layout disk app.folder).value) {names : List Name}
    (hnames : ∀ name ∈ names, Path.IsName name) (hfile : disk.isFile (root.1.joinAll names)) :
    (root.2.at? names).any FileTree.isFile := by
  rw [Disk.isFile] at hfile
  cases hfind : disk.find (root.1.joinAll names) with
  | error error =>
    rw [hfind] at hfile
    cases hfile
  | ok tree =>
    rw [hfind] at hfile
    rw [Disassembly.at?_of_find_root layout proper hroot hnames hfind]
    exact hfile

/-- The file of a class is in one root at most. -/
theorem Arranged.eq_root (h : app.Arranged layout disk) (proper : disk.Proper)
    (hslash : '/' ∉ layout.extension.toList) {internal : String} (hnamed : WellNamed internal)
    {root other : Path × FileTree}
    (hroot : root ∈ (Disassembly.roots layout disk app.folder).value)
    (hother : other ∈ (Disassembly.roots layout disk app.folder).value)
    (hfile : disk.isFile (root.1.join (fileFor internal layout.extension)))
    (hfile' : disk.isFile (other.1.join (fileFor internal layout.extension))) : other = root := by
  obtain ⟨names, hnames, hjoin⟩ := Disassembly.exists_names_fileFor hnamed hslash
  rw [hjoin] at hfile hfile'
  exact h.apart other hother root hroot names (any_isFile_of_isFile proper hother hnames hfile')
    (any_isFile_of_isFile proper hroot hnames hfile)

theorem eq_of_path_eq (proper : disk.Proper) {file other : SourceFile}
    (hfile : file ∈ app.filesOf layout disk) (hother : other ∈ app.filesOf layout disk)
    (hpath : other.path = file.path) : other = file := by
  have hsingle := Disassembly.filter_path_eq
    (Disassembly.collect_pairwise layout proper app.folder) hfile
  have hmem : other ∈ (app.filesOf layout disk).filter fun other => other.path = file.path :=
    List.mem_filter.mpr ⟨hother, by simpa using hpath⟩
  rw [filesOf, hsingle] at hmem
  exact List.mem_singleton.mp hmem

/-- Two files that declare one class lie at the same place below their roots, and so they are
    one. -/
theorem Arranged.eq_of_declares (h : app.Arranged layout disk) (proper : disk.Proper)
    (hslash : '/' ∉ layout.extension.toList) {internal : String} {file other : SourceFile}
    (hfile : file ∈ app.filesOf layout disk) (hother : other ∈ app.filesOf layout disk)
    (hname : declaredName? file.content = some internal)
    (hname' : declaredName? other.content = some internal) : other = file := by
  obtain ⟨hnamed, root, hroot, hpath⟩ := h.placed file hfile internal hname
  obtain ⟨-, root', hroot', hpath'⟩ := h.placed other hother internal hname'
  have hread : disk.isFile file.path :=
    isFile_of_readText proper hfile (h.readable file hfile (by simp [hname]))
  have hread' : disk.isFile other.path :=
    isFile_of_readText proper hother (h.readable other hother (by simp [hname']))
  rw [hpath] at hread
  rw [hpath'] at hread'
  have hsame : root' = root := h.eq_root proper hslash hnamed hroot hroot' hread hread'
  exact eq_of_path_eq proper hfile hother (by rw [hpath, hpath', hsame])

/-- Looking for a class of the tree finds the file that it was made of. -/
theorem Arranged.exists_source (h : app.Arranged layout disk) (proper : disk.Proper)
    (hext : layout.extension ≠ "") (hslash : '/' ∉ layout.extension.toList)
    {record : ClassRecord} (hrecord : record ∈ aggregate (app.filesOf layout disk)) :
    ∃ path, locateIn layout disk ((Disassembly.roots layout disk app.folder).value.map (·.1))
        record.className = some (some path) ∧ app.IsSource layout disk record path := by
  obtain ⟨internal, hinternal, rfl⟩ := mem_aggregate.mp hrecord
  obtain ⟨file, hfile, hname⟩ := mem_internalNames.mp hinternal
  obtain ⟨hnamed, root, hroot, hpath⟩ := h.placed file hfile internal hname
  have hread : disk.readText file.path = .ok file.content :=
    h.readable file hfile (by simp [hname])
  have hisFile : disk.isFile (root.1.join (fileFor internal layout.extension)) :=
    hpath ▸ isFile_of_readText proper hfile hread
  have hnodup : (app.filesOf layout disk).Nodup :=
    (Disassembly.collect_pairwise layout proper app.folder).imp fun hne hsame =>
      hne (by rw [hsame])
  rw [recordOf_of_unique hnodup hfile hname fun other hother hdeclares =>
    h.eq_of_declares proper hslash hfile hother hname hdeclares]
  refine ⟨file.path, ?_, file, hfile, rfl, by simp [hname], rfl, hread, ?_⟩
  · -- the other roots have no file at that place
    rw [hpath]
    apply Disassembly.locateIn_eq_some layout disk hnamed hext hslash
      (List.mem_map_of_mem hroot) hisFile
    intro other hother hother'
    obtain ⟨root', hroot', rfl⟩ := List.mem_map.mp hother
    rw [h.eq_root proper hslash hnamed hroot hroot' hisFile hother']
  · intro other hother hsame
    -- without dots in them, names that are alike with dots are alike
    obtain ⟨internal', hname', hcanonical⟩ := Option.map_eq_some_iff.mp hsame
    have hnamed' : WellNamed internal' := (h.placed other hother internal' hname').1
    obtain rfl := canonicalName_inj hnamed'.not_mem hnamed.not_mem hcanonical
    exact h.eq_of_declares proper hslash hfile hother hname hname'

end Arranged

/-! ## The files of the classes -/

/-- In a tree with a file for each class, an application that has read the tree, and then was
    filtered any number of times, has one file for each class, in the order of the classes:
    the file that declares the class, whose text is the content of the class. -/
theorem sourceFiles_filteredAll {layout : Layout} {disk : Disk} {app : App}
    (proper : disk.Proper) (hext : layout.extension ≠ "")
    (hslash : '/' ∉ layout.extension.toList) (arranged : app.Arranged layout disk)
    (calls : List Call) :
    ∃ paths, (((app.load layout disk).value.filteredAll calls).sourceFiles layout disk).value =
        some paths ∧
      List.Forall₂ (app.IsSource layout disk)
        ((app.load layout disk).value.filteredAll calls).classes paths := by
  have agrees : (app.load layout disk).value.Agrees := by
    rw [load_value]
    rfl
  rw [filteredAll_eq agrees, load_value]
  -- the folder is still the same, and the classes are some of those that were read
  apply Disassembly.exists_locateAllIn layout disk
  intro record hrecord
  exact arranged.exists_source proper hext hslash (List.mem_of_mem_filter hrecord)

/-- A root with a class and with a file that declares none. -/
def nearRoot : FileTree :=
  .folder
    [("x".toList, .folder [("A.smali".toList, .file ".class Lx/A;".toUTF8 false)]),
     ("notes".toList, .file "n".toUTF8 false)]

/-- A root with another class. -/
def farRoot : FileTree := .folder [("B.smali".toList, .file ".class LB;".toUTF8 false)]

/-- A decompiled tree with these two roots. -/
def arrangedDisk : Disk :=
  ⟨[("app".toList,
    .folder [("smali".toList, nearRoot), ("smali_classes2".toList, farRoot)])], []⟩

theorem arranged_arrangedDisk (parallel : Bool) :
    (App.ofFolder (.ofString "app") parallel).Arranged .usual arrangedDisk := by
  have hfiles : (App.ofFolder (.ofString "app") parallel).filesOf .usual arrangedDisk =
      [⟨"A.smali", ".class Lx/A;", .ofString "app/smali/x/A.smali"⟩,
       ⟨"notes", "n", .ofString "app/smali/notes"⟩,
       ⟨"B.smali", ".class LB;", .ofString "app/smali_classes2/B.smali"⟩] := by
    show (Disassembly.collect .usual arrangedDisk (.ofString "app")).value = _
    decide +kernel
  have hroots : (Disassembly.roots .usual arrangedDisk (.ofString "app")).value =
      [(.ofString "app/smali", nearRoot), (.ofString "app/smali_classes2", farRoot)] := rfl
  have hnear : ∀ names, (nearRoot.at? names).any FileTree.isFile →
      ¬ (farRoot.at? names).any FileTree.isFile := by
    intro names hfile hfile'
    -- the first name is enough, the roots have no entry of one name
    cases names with
    | nil => cases hfile
    | cons name more =>
      by_cases hname : name = "B.smali".toList
      · subst hname
        cases hfile
      · have hbeq : (name == "B.smali".toList) = false := by simpa using hname
        rw [farRoot, FileTree.at?_folder, List.lookup_cons, hbeq] at hfile'
        cases hfile'
  refine ⟨?_, ?_, ?_⟩
  · rw [hfiles]
    decide +kernel
  · rw [hfiles]
    have hfirst : declaredName? ".class Lx/A;" = some "x/A" := by decide +kernel
    have hnone : declaredName? "n" = none := by decide +kernel
    have hlast : declaredName? ".class LB;" = some "B" := by decide +kernel
    intro file hfile internal hname
    simp only [List.mem_cons, List.not_mem_nil, or_false] at hfile
    rcases hfile with rfl | rfl | rfl
    · obtain rfl : "x/A" = internal := Option.some.inj (hfirst.symm.trans hname)
      exact ⟨by decide, (.ofString "app/smali", nearRoot), hroots ▸ List.mem_cons_self,
        by decide +kernel⟩
    · cases hnone.symm.trans hname
    · obtain rfl : "B" = internal := Option.some.inj (hlast.symm.trans hname)
      exact ⟨by decide, (.ofString "app/smali_classes2", farRoot),
        hroots ▸ List.mem_cons_of_mem _ List.mem_cons_self, by decide +kernel⟩
  · show ∀ root ∈ (Disassembly.roots .usual arrangedDisk (.ofString "app")).value,
      ∀ other ∈ (Disassembly.roots .usual arrangedDisk (.ofString "app")).value, _
    rw [hroots]
    intro root hroot other hother names hfile hfile'
    rcases List.mem_pair.mp hroot with rfl | rfl
    · rcases List.mem_pair.mp hother with rfl | rfl
      · rfl
      · exact absurd hfile' (hnear names hfile)
    · rcases List.mem_pair.mp hother with rfl | rfl
      · exact absurd hfile (hnear names hfile')
      · rfl

/-- After a call that keeps one of the two classes, one file is left. -/
theorem sourceFiles_filteredAll_arrangedDisk :
    let app := App.ofFolder (.ofString "app") true
    let own : Call := (Namespace.Filter.idle, some "x")
    arrangedDisk.Proper ∧ Layout.usual.extension ≠ "" ∧ '/' ∉ Layout.usual.extension.toList ∧
      app.Arranged .usual arrangedDisk ∧
      ∃ paths, (((app.load .usual arrangedDisk).value.filteredAll [own]).sourceFiles .usual
          arrangedDisk).value = some paths ∧
        List.Forall₂ (app.IsSource .usual arrangedDisk)
          ((app.load .usual arrangedDisk).value.filteredAll [own]).classes paths := by
  intro app own
  have proper : arrangedDisk.Proper :=
    .cons (by decide) (by decide)
      (.cons (by decide) (by decide)
        (.cons (by decide) (by decide)
          (.cons (by decide) (by decide) (.file _ _) .nil)
          (.cons (by decide) (by decide) (.file _ _) .nil))
        (.cons (by decide) (by decide)
          (.cons (by decide) (by decide) (.file _ _) .nil) .nil)) .nil
  have arranged : app.Arranged .usual arrangedDisk := arranged_arrangedDisk true
  exact ⟨proper, by decide, by decide, arranged,
    sourceFiles_filteredAll proper (by decide) (by decide) arranged [own]⟩

end App

end SmaliSieve
