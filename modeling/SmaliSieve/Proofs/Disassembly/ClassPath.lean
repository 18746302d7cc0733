/-
  SmaliSieve.Proofs.Disassembly.ClassPath

  From the internal name of a class to the dotted one, and from there back to a file.

  A dotted name is cut at its dots. That gives the segments of the internal name back as
  long as none of them has a dot of its own, and they lead to the file that is called after
  the last of them (`sourcePath?_canonicalName`). The file is looked for in one root after
  the other; if it is there in one of them only, that one is found (`locateIn_eq_some`).
-/

import Mathlib.Data.List.Forall2
import SmaliSieve.Disassembly.Locate
import SmaliSieve.Proofs.Disassembly.Roots
import SmaliSieve.Proofs.Path.FileName
import SmaliSieve.Proofs.Tree.Finding
import SmaliSieve.Smali.Directive

namespace SmaliSieve

namespace Disassembly

open Smali

/-! ## Names of classes and of their files -/

/-- The segments of the internal name are not empty, and no dot is in them. -/
def WellNamed (internal : String) : Prop :=
  ∀ segment ∈ Text.segments '/' internal.toList, segment ≠ [] ∧ '.' ∉ segment

instance (internal : String) : Decidable (WellNamed internal) :=
  inferInstanceAs (Decidable (∀ segment ∈ Text.segments '/' internal.toList, _))

theorem WellNamed.isName {internal : String} (h : WellNamed internal) {segment : List Char}
    (hmem : segment ∈ Text.segments '/' internal.toList) : Path.IsName segment := by
  obtain ⟨hne, hdot⟩ := h segment hmem
  refine ⟨hne, ?_, ?_, Text.not_mem_of_mem_segments hmem⟩
  · rintro rfl
    exact hdot (by simp)
  · rintro rfl
    exact hdot (by simp)

theorem WellNamed.not_mem {internal : String} (h : WellNamed internal) :
    '.' ∉ internal.toList := by
  intro hmem
  obtain ⟨segment, hsegment, hdot⟩ := Text.exists_mem_segments hmem (by decide : '.' ≠ '/')
  exact (h segment hsegment).2 hdot

theorem WellNamed.exists_concat {internal : String} (h : WellNamed internal) :
    ∃ before last, Text.segments '/' internal.toList = before ++ [last] ∧
      (∀ segment ∈ before, Path.IsName segment) ∧ Path.IsName last ∧ '.' ∉ last ∧
      internal.toList = before.flatMap (· ++ ['/']) ++ last := by
  obtain ⟨before, last, hsegments⟩ :=
    (List.eq_nil_or_concat' _).resolve_left (Text.segments_ne_nil '/' internal.toList)
  have hmem : ∀ segment ∈ before ++ [last], segment ∈ Text.segments '/' internal.toList :=
    fun segment hsegment => hsegments ▸ hsegment
  refine ⟨before, last, hsegments, fun segment hsegment => ?_, h.isName (hmem last (by simp)),
    (h last (hmem last (by simp))).2, ?_⟩
  · exact h.isName (hmem segment (List.mem_append_left _ hsegment))
  · rw [← Text.joinWith_concat, ← hsegments, Text.joinWith_segments]

/-- The file of a class as seen from its root. -/
def fileFor (internal extension : String) : List Char :=
  internal.toList ++ '.' :: extension.toList

/-- The file of a class lies in the folders of the segments but the last, which gives the
    file its name. -/
theorem exists_names_fileFor {internal extension : String} (h : WellNamed internal)
    (hslash : '/' ∉ extension.toList) :
    ∃ names, (∀ name ∈ names, Path.IsName name) ∧
      ∀ path : Path, path.join (fileFor internal extension) = path.joinAll names := by
  obtain ⟨before, last, -, hbefore, hlast, hdot, hinternal⟩ := h.exists_concat
  have hfile : Path.IsName (last ++ '.' :: extension.toList) :=
    hlast.append hdot (by simp [hslash])
  have hnames : ∀ name ∈ before ++ [last ++ '.' :: extension.toList], Path.IsName name :=
    List.forall_mem_append.mpr ⟨hbefore, by simpa using hfile⟩
  refine ⟨_, hnames, fun path => ?_⟩
  rw [Path.joinAll_eq_join path (by simp) hnames, Text.joinWith_concat, fileFor, hinternal,
    List.append_assoc]

/-- The dotted name leads back to the file. -/
theorem sourcePath?_canonicalName {internal extension : String} (h : WellNamed internal)
    (hext : extension ≠ "") (hslash : '/' ∉ extension.toList) :
    sourcePath? (canonicalName internal) extension = some ⟨fileFor internal extension⟩ := by
  obtain ⟨before, last, hsegments, hbefore, hlast, hdot, hinternal⟩ := h.exists_concat
  have hcut : Text.segments '.' (canonicalName internal).toList = before ++ [last] := by
    rw [canonicalName, String.toList_ofList, Text.segments_replaceChar h.not_mem, hsegments]
  have hnames : ∀ name ∈ before ++ [last], Path.IsName name :=
    List.forall_mem_append.mpr ⟨hbefore, by simpa using hlast⟩
  -- joined to nothing, the segments are the internal name again
  have hpath : (Path.mk []).joinAll (before ++ [last]) = ⟨internal.toList⟩ := by
    have hhead := Path.head?_joinWith_ne (by simp) hnames
    rw [Path.joinAll_eq_join _ (by simp) hnames, Path.join_of_nil hhead rfl, ← hsegments,
      Text.joinWith_segments]
  -- its last segment has no extension, so the extension comes behind all of it
  have hnamed : (Path.mk internal.toList).Named before last [] :=
    ⟨hsegments, hlast, fun _ hmem => absurd hmem List.not_mem_nil⟩
  have hbreaks : Path.breaksName extension.toList = false := by
    simpa [Path.breaksName] using hslash
  have hempty : extension.toList.isEmpty = false := by simpa using hext
  rw [sourcePath?, hcut, hpath, Path.withExtension?, hbreaks, hnamed.splitName?]
  simp [Path.splitExtension_of_not_mem hdot, hempty, fileFor, hinternal]

/-! ## Looking in the roots -/

/-- The file that is found is the only one there is. -/
theorem locateIn_eq_some (layout : Layout) (disk : Disk) {internal : String}
    (h : WellNamed internal) (hext : layout.extension ≠ "")
    (hslash : '/' ∉ layout.extension.toList) {roots : List Path} {root : Path}
    (hmem : root ∈ roots) (hfile : disk.isFile (root.join (fileFor internal layout.extension)))
    (honly : ∀ other ∈ roots, disk.isFile (other.join (fileFor internal layout.extension)) →
      other = root) :
    locateIn layout disk roots (canonicalName internal) =
      some (some (root.join (fileFor internal layout.extension))) := by
  rw [locateIn, sourcePath?_canonicalName h hext hslash, Option.map_some, List.find?_map,
    Option.some.injEq, Option.map_eq_some_iff]
  refine ⟨root, ?_, rfl⟩
  -- something is found, and whatever it is, the file is there
  have hsome : (roots.find? (disk.isFile ∘ (·.join (fileFor internal layout.extension)))).isSome :=
    List.find?_isSome.mpr ⟨root, hmem, hfile⟩
  obtain ⟨other, hother⟩ := Option.isSome_iff_exists.mp hsome
  have hisFile : (disk.isFile ∘ (·.join (fileFor internal layout.extension))) other = true :=
    List.find?_some hother
  obtain rfl := honly other (List.mem_of_find?_eq_some hother) hisFile
  exact hother

/-- If each class has a file, the files come one for each class and in the order of the
    classes. -/
theorem exists_locateAllIn (layout : Layout) (disk : Disk) {roots : List Path}
    {R : ClassRecord → Path → Prop} {records : List ClassRecord}
    (h : ∀ record ∈ records, ∃ path,
      locateIn layout disk roots record.className = some (some path) ∧ R record path) :
    ∃ paths, locateAllIn layout disk roots (records.map (·.className)) = some paths ∧
      List.Forall₂ R records paths := by
  induction records with
  | nil => exact ⟨[], rfl, .nil⟩
  | cons record records ih =>
    obtain ⟨⟨path, hpath, hrecord⟩, hrest⟩ := List.forall_mem_cons.mp h
    obtain ⟨paths, hpaths, hrecords⟩ := ih hrest
    refine ⟨path :: paths, ?_, .cons hrecord hrecords⟩
    rw [locateAllIn, Option.map_eq_some_iff] at hpaths ⊢
    obtain ⟨found, hfound, rfl⟩ := hpaths
    refine ⟨some path :: found, ?_, rfl⟩
    rw [List.map_cons, List.mapM_cons, hpath, hfound]
    rfl

/-! ## Places below a root -/

/-- A root is a place below the folder that the roots were looked for in. -/
theorem exists_place_of_mem_roots (layout : Layout) {disk : Disk} (proper : disk.Proper)
    {base : Path} {root : Path × FileTree} (hroot : root ∈ (roots layout disk base).value) :
    ∃ entries location, disk.find base = .ok (.folder entries) ∧
      (FileTree.folder entries).at? location = some root.2 ∧ root.1 = base.joinAll location ∧
      (∀ name ∈ location, Path.IsName name) ∧ root.2.Proper := by
  by_cases hbase : ∃ entries, disk.find base = .ok (.folder entries)
  · obtain ⟨entries, hfolder⟩ := hbase
    have hproper : (FileTree.folder entries).Proper := proper.find hfolder
    rw [roots_of_folder layout hfolder] at hroot
    obtain ⟨location, hplace, -, hpath, -⟩ := (mem_rootsIn layout hproper).mp hroot
    exact ⟨entries, location, hfolder, hplace, hpath, (hproper.at? hplace).2,
      (hproper.at? hplace).1⟩
  · rw [roots_of_not_folder layout fun entries hfolder => hbase ⟨entries, hfolder⟩] at hroot
    cases hroot

theorem at?_of_find_root (layout : Layout) {disk : Disk} (proper : disk.Proper) {base : Path}
    {root : Path × FileTree} (hroot : root ∈ (roots layout disk base).value) {names : List Name}
    (hnames : ∀ name ∈ names, Path.IsName name) {found : FileTree}
    (hfound : disk.find (root.1.joinAll names) = .ok found) : root.2.at? names = some found := by
  obtain ⟨entries, location, hbase, hplace, hpath, hlocation, -⟩ :=
    exists_place_of_mem_roots layout proper hroot
  -- the way from the base to the root goes on behind it
  have hlonger : root.1.joinAll names = base.joinAll (location ++ names) := by
    rw [hpath, Path.joinAll, Path.joinAll, Path.joinAll, List.foldl_append]
  rw [hlonger] at hfound
  have hwhole := Disk.at?_of_find_joinAll hbase
    (List.forall_mem_append.mpr ⟨hlocation, hnames⟩) hfound
  rwa [FileTree.at?_append, hplace, Option.bind_some] at hwhole

end Disassembly

end SmaliSieve
