/-
  SmaliSieve.Proofs.Disassembly.Coverage

  Reading a decompiled tree misses nothing and reads nothing twice.

  `Belongs` says which files belong to the disassembly of a tree: files that are text and
  stand, at any depth, below a folder whose name starts with the marker. Each of them is
  read once, and nothing else is read (`collect_covers`). The roots that lead there part from
  each other, and every marked folder is at or below exactly one of them. All this holds for
  every marker, also an empty one, for markers within markers, and for every order in which
  folders are enumerated.
-/

import SmaliSieve.Proofs.Disassembly.Roots
import SmaliSieve.Proofs.Path.FileName

namespace SmaliSieve.Disassembly

open Smali

variable (layout : Layout)

theorem Layout.marks_iff {name : Name} :
    layout.marks name = true ↔ layout.marker.toList <+: name := by
  rw [Layout.marks, Text.startsWith, Option.isSome_iff_exists]
  simp only [Text.chop?_eq_some_iff]
  exact exists_congr fun rest => eq_comm

/-! ## Marked folders -/

/-- Below the tree, a folder stands at `location` whose name starts with the marker. -/
structure Marked (tree : FileTree) (location : List Name) : Prop where
  isFolder : ∃ entries, tree.at? location = some (.folder entries)
  name : ∃ name, location.getLast? = some name ∧ layout.marker.toList <+: name

theorem Topmost.marked {tree root : FileTree} {location : List Name}
    (h : Topmost layout location) (hroot : tree.at? location = some root)
    (hfolder : root.isFolder) : Marked layout tree location := by
  obtain ⟨name, hlast, hmark⟩ := h.getLast?
  obtain ⟨entries, rfl⟩ := FileTree.isFolder_eq_true_iff.mp hfolder
  exact ⟨⟨entries, hroot⟩, name, hlast, (Layout.marks_iff layout).mp hmark⟩

/-- There is a marked folder on the way to a file exactly if the way has a marked name. -/
theorem exists_marked_iff {tree found : FileTree} {front : List Name} {name : Name}
    (hfound : tree.at? (front ++ [name]) = some found) :
    (∃ above, above <+: front ∧ Marked layout tree above) ↔
      ∃ folder ∈ front, layout.marks folder = true := by
  constructor
  · rintro ⟨above, hfront, -, last, hlast, hmark⟩
    exact ⟨last, hfront.mem (List.mem_of_getLast? hlast), (Layout.marks_iff layout).mpr hmark⟩
  · rintro ⟨folder, hmem, hmark⟩
    obtain ⟨before, behind, rfl⟩ := List.append_of_mem hmem
    refine ⟨before ++ [folder], ⟨behind, by simp⟩, ?_, folder, by simp,
      (Layout.marks_iff layout).mp hmark⟩
    -- something stands further down, so what stands here is a folder
    have hsplit : before ++ folder :: behind ++ [name] =
        (before ++ [folder]) ++ (behind ++ [name]) := by simp
    rw [hsplit, FileTree.at?_append, Option.bind_eq_some_iff] at hfound
    obtain ⟨tree', htree', hbelow⟩ := hfound
    obtain ⟨next, more, hmore⟩ := List.exists_cons_of_ne_nil
      (List.append_ne_nil_of_right_ne_nil behind (List.cons_ne_nil name []))
    rw [hmore] at hbelow
    obtain ⟨entries, rfl⟩ :=
      FileTree.isFolder_eq_true_iff.mp (FileTree.isFolder_of_at?_cons hbelow)
    exact ⟨entries, htree'⟩

/-! ## The files of the disassembly -/

/-- A file that is text, with a marked folder above it. The names of `front` lead to the
    folder that holds it. -/
structure Belongs (tree : FileTree) (front : List Name) (name : Name) (text : String) : Prop where
  isText : ∃ contents runnable, tree.at? (front ++ [name]) = some (.file contents runnable) ∧
    String.fromUTF8? contents = some text
  above : ∃ above, above <+: front ∧ Marked layout tree above

/-- What is read of such a file: the bare name, the text, and the path from `base` on. -/
def sourceAt (base : Path) (front : List Name) (name : Name) (text : String) : SourceFile :=
  ⟨String.ofList name, text, base.joinAll (front ++ [name])⟩

theorem sourceFile?_eq_some_iff {base : Path} {front : List Name} {name : Name}
    (hname : Path.IsName name) {tree : FileTree} (hisFile : tree.isFile) {source : SourceFile} :
    (sourceFile? (base.joinAll (front ++ [name])) tree).toOption = some source ↔
      ∃ contents runnable text, tree = .file contents runnable ∧
        String.fromUTF8? contents = some text ∧ source = sourceAt base front name text := by
  have hfile : (base.joinAll (front ++ [name])).fileName? = some name := by
    rw [Path.joinAll, List.foldl_append]
    exact Path.fileName?_join _ hname
  cases tree with
  | folder entries => cases hisFile
  | device reading writing => cases hisFile
  | file contents runnable =>
    rw [sourceFile?, FileTree.read, Except.bind, Disk.textOf]
    cases htext : String.fromUTF8? contents with
    | none => simp [Except.map, Except.toOption, htext]
    | some text => simp [Except.map, Except.toOption, htext, hfile, sourceAt, eq_comm]

theorem mem_collect {disk : Disk} (proper : disk.Proper) {base : Path}
    {entries : List (Name × FileTree)} (hbase : disk.find base = .ok (.folder entries))
    {source : SourceFile} :
    source ∈ (collect layout disk base).value ↔
      ∃ front name text, Belongs layout (.folder entries) front name text ∧
        source = sourceAt base front name text := by
  have hproper : (FileTree.folder entries).Proper := proper.find hbase
  rw [collect_value, roots_of_folder layout hbase, readable, List.mem_filterMap]
  simp only [mem_filesOf_rootsIn layout hproper]
  constructor
  · -- with a marked name in front of its last one the location is not empty
    rintro ⟨⟨path, tree⟩, ⟨location, hfound, hisFile, rfl, folder, hfolder, hmark⟩, hsource⟩
    obtain ⟨front, name, rfl⟩ : ∃ front name, location = front ++ [name] :=
      (List.eq_nil_or_concat' location).resolve_left (by rintro rfl; cases hfolder)
    rw [List.dropLast_concat] at hfolder
    have hname : Path.IsName name := (hproper.at? hfound).2 name (by simp)
    obtain ⟨contents, runnable, text, rfl, htext, rfl⟩ :=
      (sourceFile?_eq_some_iff hname hisFile).mp hsource
    exact ⟨front, name, text, ⟨⟨contents, runnable, hfound, htext⟩,
      (exists_marked_iff layout hfound).mpr ⟨folder, hfolder, hmark⟩⟩, rfl⟩
  · rintro ⟨front, name, text, ⟨⟨contents, runnable, hfound, htext⟩, habove⟩, rfl⟩
    obtain ⟨folder, hfolder, hmark⟩ := (exists_marked_iff layout hfound).mp habove
    have hname : Path.IsName name := (hproper.at? hfound).2 name (by simp)
    refine ⟨(base.joinAll (front ++ [name]), .file contents runnable),
      ⟨front ++ [name], hfound, rfl, rfl, folder, by simpa using hfolder, hmark⟩, ?_⟩
    exact (sourceFile?_eq_some_iff hname rfl).mpr ⟨contents, runnable, text, rfl, htext, rfl⟩

/-- Among files with different paths, one is all there is at its path. -/
theorem filter_path_eq {sources : List SourceFile}
    (h : sources.Pairwise fun a b => a.path.components ≠ b.path.components)
    {source : SourceFile} (hmem : source ∈ sources) :
    sources.filter (fun other => other.path = source.path) = [source] := by
  induction sources with
  | nil => cases hmem
  | cons first rest ih =>
    obtain ⟨hfirst, hrest⟩ := List.pairwise_cons.mp h
    rcases List.mem_cons.mp hmem with rfl | hmem
    · have hnone : rest.filter (fun other => other.path = source.path) = [] := by
        rw [List.filter_eq_nil_iff]
        intro other hother hsame
        exact hfirst other hother (by rw [of_decide_eq_true hsame])
      rw [List.filter_cons_of_pos (by simp), hnone]
    · have hne : first.path ≠ source.path := fun hsame => hfirst source hmem (by rw [hsame])
      rw [List.filter_cons_of_neg (by simpa using hne), ih hrest hmem]

/-- In a tree at `base`, each file that belongs to the disassembly is read exactly once, with
    its bare name, its text and its path, and nothing else is read. The roots are marked
    folders below `base`, none of them lies in another, and every marked folder below `base`
    is one of them or lies in exactly one. -/
theorem collect_covers {disk : Disk} (proper : disk.Proper) {base : Path}
    {entries : List (Name × FileTree)} (hbase : disk.find base = .ok (.folder entries)) :
    (∀ front name text, Belongs layout (.folder entries) front name text →
        (collect layout disk base).value.filter
            (fun source => source.path = base.joinAll (front ++ [name])) =
          [sourceAt base front name text]) ∧
      (∀ source ∈ (collect layout disk base).value, ∃ front name text,
        Belongs layout (.folder entries) front name text ∧
          source = sourceAt base front name text) ∧
      (∀ root ∈ (roots layout disk base).value, ∃ location,
        Marked layout (.folder entries) location ∧
          (FileTree.folder entries).at? location = some root.2 ∧
          root.1 = base.joinAll location) ∧
      ((roots layout disk base).value.Pairwise fun a b => a.1.Apart b.1) ∧
      ∀ location, Marked layout (.folder entries) location →
        ∃! root, root ∈ (roots layout disk base).value ∧
          root.1.components <+: (base.joinAll location).components := by
  have hproper : (FileTree.folder entries).Proper := proper.find hbase
  refine ⟨?_, fun source hsource => (mem_collect layout proper hbase).mp hsource, ?_, ?_, ?_⟩
  · intro front name text hbelongs
    have hmem : sourceAt base front name text ∈ (collect layout disk base).value :=
      (mem_collect layout proper hbase).mpr ⟨front, name, text, hbelongs, rfl⟩
    exact filter_path_eq (collect_pairwise layout proper base) hmem
  · intro root hroot
    rw [roots_of_folder layout hbase] at hroot
    obtain ⟨location, hfound, hfolder, hpath, htop⟩ := (mem_rootsIn layout hproper).mp hroot
    exact ⟨location, htop.marked layout hfound hfolder, hfound, hpath⟩
  · rw [roots_of_folder layout hbase]
    exact rootsIn_pairwise layout hproper base
  · rintro location ⟨⟨below, hfound⟩, name, hlast, hmark⟩
    rw [roots_of_folder layout hbase]
    exact existsUnique_rootsIn layout hproper base hfound rfl
      ⟨name, List.mem_of_getLast? hlast, (Layout.marks_iff layout).mpr hmark⟩

/-- Roots at two depths, a marked folder within one of them, a file that is no text, and a
    file outside of every root. -/
def nestedEntries : List (Name × FileTree) :=
  [("res".toList, .folder [("smali2".toList, .folder [("B".toList, .file "b".toUTF8 false)])]),
   ("smali".toList, .folder
     [("bad".toList, .file ⟨#[0xff]⟩ false),
      ("smali_inner".toList, .folder [("X".toList, .file "x".toUTF8 false)])]),
   ("N".toList, .file "n".toUTF8 false)]

/-- A disk with these entries in the folder `app`. -/
def nestedDisk : Disk := ⟨[("app".toList, .folder nestedEntries)], []⟩

/-- The file below two marked folders is read once, and the inner one lies in one root. -/
theorem collect_covers_nestedDisk :
    let base := Path.ofString "app"
    let inner := ["smali".toList, "smali_inner".toList]
    nestedDisk.Proper ∧ nestedDisk.find base = .ok (.folder nestedEntries) ∧
      Belongs .usual (.folder nestedEntries) inner "X".toList "x" ∧
      Marked .usual (.folder nestedEntries) inner ∧
      (collect .usual nestedDisk base).value.filter
          (fun source => source.path = base.joinAll (inner ++ ["X".toList])) =
        [⟨"X", "x", .ofString "app/smali/smali_inner/X"⟩] ∧
      (∃! root, root ∈ (roots .usual nestedDisk base).value ∧
        root.1.components <+: (base.joinAll inner).components) ∧
      (collect .usual nestedDisk base).value.map (·.path.text) =
        ["app/res/smali2/B", "app/smali/smali_inner/X"] := by
  intro base inner
  have proper : nestedDisk.Proper :=
    .cons (by decide) (by decide)
      (.cons (by decide) (by decide)
        (.cons (by decide) (by decide)
          (.cons (by decide) (by decide) (.file _ _) .nil) .nil)
        (.cons (by decide) (by decide)
          (.cons (by decide) (by decide) (.file _ _)
            (.cons (by decide) (by decide)
              (.cons (by decide) (by decide) (.file _ _) .nil) .nil))
          (.cons (by decide) (by decide) (.file _ _) .nil))) .nil
  have hbase : nestedDisk.find base = .ok (.folder nestedEntries) := rfl
  have hinner : Marked .usual (.folder nestedEntries) inner :=
    ⟨⟨_, rfl⟩, "smali_inner".toList, rfl, by decide⟩
  have hbelongs : Belongs .usual (.folder nestedEntries) inner "X".toList "x" :=
    ⟨⟨_, _, rfl, by decide +kernel⟩, inner, List.prefix_rfl, hinner⟩
  obtain ⟨hread, -, -, -, hroots⟩ := collect_covers .usual proper hbase
  exact ⟨proper, hbase, hbelongs, hinner, hread _ _ _ hbelongs, hroots _ hinner,
    by decide +kernel⟩

end SmaliSieve.Disassembly
