/-
  SmaliSieve.Proofs.Tool.OutputFolder

  Where the decompiled tree of an archive goes, seen from the archive.

  The tree is meant to stand beside the archive: in the same folder, under another name. An
  archive whose name is one dot or two and the extension (`DotsOnly`) has no such name left, and
  what is left leads to the folder that the archive is in or to the one above
  (`exists_pieces_above`). A path with another extension, or with none, gets one at its very
  end, which is behind the name only if no separator stands there; otherwise the tree is below
  the archive (`exists_pieces_beside`, `exists_pieces_below`).

  These three cases are all there are. The tree is beside the archive in the second one alone
  (`outputFolder_beside_iff`), and on a disk it is the archive or holds it in the first one
  alone (`outputFolder_above_iff`). In the others, removing the tree leaves the archive as it is
  (`unchanged_deleteTree`).
-/

import SmaliSieve.App.Operation
import SmaliSieve.Proofs.Path.FileName
import SmaliSieve.Proofs.Tree.Writing

namespace SmaliSieve

/-- The paths lead to two different names in one folder. -/
def Path.Beside (path other : Path) : Prop :=
  ∃ parent name name', path.components = parent ++ [.name name] ∧
    other.components = parent ++ [.name name'] ∧ name ≠ name'

namespace Tool

/-- But for the extension of archives, the name is one dot or two. -/
def DotsOnly (name : List Char) : Prop :=
  ∃ stem extension, (stem = ['.'] ∨ stem = ['.', '.']) ∧ name = stem ++ '.' :: extension ∧
    extension.map Char.toLower = archiveExtension

variable {archive : Path} {before idle : List (List Char)} {name : List Char}

/-! ## Names of archives -/

theorem ne_nil_of_dots {step : List Char} (h : step = ['.'] ∨ step = ['.', '.']) : step ≠ [] := by
  rcases h with rfl | rfl <;> exact List.cons_ne_nil _ _

theorem dot_not_mem {extension : List Char}
    (h : extension.map Char.toLower = archiveExtension) : '.' ∉ extension := by
  intro hmem
  have hdot : Char.toLower '.' ∈ archiveExtension := h ▸ List.mem_map_of_mem hmem
  exact absurd hdot (by decide)

theorem isArchiveName_iff (h : archive.Named before name idle) :
    isArchiveName archive ↔ ∃ stem extension, stem ≠ [] ∧ name = stem ++ '.' :: extension ∧
      extension.map Char.toLower = archiveExtension := by
  rw [isArchiveName, h.extension?, decide_eq_true_iff, Option.map_eq_some_iff]
  constructor
  · rintro ⟨extension, hextension, hlower⟩
    obtain ⟨stem, hstem, -, hname⟩ := Path.splitExtension_eq_some_iff.mp hextension
    exact ⟨stem, extension, hstem, hname, hlower⟩
  · rintro ⟨stem, extension, hstem, hname, hlower⟩
    exact ⟨extension, Path.splitExtension_eq_some_iff.mpr
      ⟨stem, hstem, dot_not_mem hlower, hname⟩, hlower⟩

/-- An archive with more than dots in front of its extension has a stem that is a name. -/
theorem isName_stem {stem extension : List Char} (hname : Path.IsName (stem ++ '.' :: extension))
    (hdots : ¬ DotsOnly (stem ++ '.' :: extension)) (hne : stem ≠ [])
    (hlower : extension.map Char.toLower = archiveExtension) : Path.IsName stem := by
  refine ⟨hne, ?_, ?_, fun hmem => hname.not_mem (List.mem_append_left _ hmem)⟩
  · rintro rfl
    exact hdots ⟨_, extension, .inl rfl, rfl, hlower⟩
  · rintro rfl
    exact hdots ⟨_, extension, .inr rfl, rfl, hlower⟩

/-! ## The pieces of the folder -/

theorem DotsOnly.isArchiveName (hdots : DotsOnly name) (h : archive.Named before name idle) :
    isArchiveName archive = true := by
  obtain ⟨stem, extension, hstem, hname, hlower⟩ := hdots
  exact (isArchiveName_iff h).mpr ⟨stem, extension, ne_nil_of_dots hstem, hname, hlower⟩

/-- The tree of an archive without a name of its own goes where its dots lead to. -/
theorem exists_pieces_above (h : archive.Named before name idle) (hdots : DotsOnly name) :
    ∃ step, (step = ['.'] ∨ step = ['.', '.']) ∧
      (outputFolder archive).pieces = before ++ [step] := by
  rw [outputFolder, if_pos (hdots.isArchiveName h)]
  obtain ⟨stem, extension, hstem, rfl, hlower⟩ := hdots
  rw [h.dropExtension_eq (ne_nil_of_dots hstem) (dot_not_mem hlower)]
  by_cases hbare : stem = ['.'] ∧ idle = []
  · rw [if_pos hbare]
    exact ⟨_, .inr rfl, Path.pieces_of_chars_concat h.not_mem_before (by decide)⟩
  · rw [if_neg hbare]
    have hslash : '/' ∉ stem := by rcases hstem with rfl | rfl <;> decide
    exact ⟨stem, hstem, Path.pieces_of_chars_concat h.not_mem_before hslash⟩

/-- With the extension that a path gets, a piece is always a name. -/
theorem isName_append_out {piece : List Char} (h : '/' ∉ piece) :
    Path.IsName (piece ++ ".out".toList) := by
  have hlong : 2 < (piece ++ ".out".toList).length := by simp
  refine ⟨fun hnil => ?_, fun hhere => ?_, fun hparent => ?_, fun hmem => ?_⟩
  · rw [hnil] at hlong
    exact absurd hlong (by decide)
  · rw [hhere] at hlong
    exact absurd hlong (by decide)
  · rw [hparent] at hlong
    exact absurd hlong (by decide)
  · rcases List.mem_append.mp hmem with hmem | hmem
    · exact h hmem
    · exact absurd hmem (by decide)

/-- Any other archive leaves a name, and so does any other path that ends with its name. -/
theorem exists_pieces_beside (h : archive.Named before name idle) (hdots : ¬ DotsOnly name)
    (hends : isArchiveName archive ∨ idle = []) :
    ∃ other, Path.IsName other ∧ other ≠ name ∧
      (outputFolder archive).pieces = before ++ [other] := by
  rw [outputFolder]
  by_cases harchive : isArchiveName archive
  · obtain ⟨stem, extension, hne, rfl, hlower⟩ := (isArchiveName_iff h).mp harchive
    have hstem := isName_stem h.isName hdots hne hlower
    refine ⟨stem, hstem, by simp, ?_⟩
    rw [if_pos harchive, h.dropExtension_eq hne (dot_not_mem hlower),
      if_neg (fun hbare => hstem.ne_here hbare.1),
      Path.pieces_of_chars_concat h.not_mem_before hstem.not_mem]
  · obtain rfl := hends.resolve_left harchive
    have hname := isName_append_out h.isName.not_mem
    refine ⟨_, hname, by simp, ?_⟩
    have hchars : (archive.append ".out").chars =
        before.flatMap (· ++ ['/']) ++ (name ++ ".out".toList) := by
      rw [Path.append, h.chars_eq]
      simp
    rw [if_neg harchive, ← Path.pieces_of_chars_concat h.not_mem_before hname.not_mem, ← hchars]

/-- The extension that a path gets stands behind a separator at its end. -/
theorem exists_pieces_below (h : archive.Named before name idle)
    (hends : ¬ (isArchiveName archive ∨ idle = [])) :
    ∃ less other, (∀ piece ∈ less, Path.isIdle piece) ∧ Path.IsName other ∧
      (outputFolder archive).pieces = before ++ name :: (less ++ [other]) := by
  obtain ⟨harchive, hidle⟩ := not_or.mp hends
  obtain ⟨less, last, rfl⟩ := (List.eq_nil_or_concat' idle).resolve_left hidle
  obtain ⟨hless, hlast⟩ := List.forall_mem_append.mp h.idle_behind
  have hother : Path.IsName (last ++ ".out".toList) :=
    isName_append_out (Path.not_mem_of_isIdle (hlast last List.mem_cons_self))
  refine ⟨less, _, hless, hother, ?_⟩
  have hchars : (archive.append ".out").chars = before.flatMap (· ++ ['/']) ++
      (name ++ (less ++ [last ++ ".out".toList]).flatMap ('/' :: ·)) := by
    rw [Path.append, h.chars_eq]
    simp
  have hslash : ∀ piece ∈ less ++ [last ++ ".out".toList], '/' ∉ piece :=
    List.forall_mem_append.mpr ⟨fun piece hmem => Path.not_mem_of_isIdle (hless piece hmem),
      by simpa using hother.not_mem⟩
  rw [outputFolder, if_neg harchive,
    ← Path.pieces_of_chars h.not_mem_before h.isName.not_mem hslash, ← hchars]

/-! ## Beside the archive -/

theorem beside_iff (h : archive.Named before name idle) {path : Path} :
    path.Beside archive ↔
      ∃ other, other ≠ name ∧ path.components = Path.stepsBefore before ++ [.name other] := by
  rw [Path.Beside, h.components]
  constructor
  · rintro ⟨parent, other, name', hpath, harchive, hne⟩
    obtain ⟨rfl, hlast⟩ := List.append_inj' harchive rfl
    obtain rfl : name = name' := by simpa using hlast
    exact ⟨other, hne, hpath⟩
  · rintro ⟨other, hne, hpath⟩
    exact ⟨_, other, name, hpath, rfl, hne⟩

/-- Where only dots are left, the path does not end with a name in the same folder. -/
theorem components_ne_of_dots {path : Path} {step : List Char}
    (hstep : step = ['.'] ∨ step = ['.', '.']) (h : path.pieces = before ++ [step])
    (other : List Char) : path.components ≠ Path.stepsBefore before ++ [.name other] := by
  rcases hstep with rfl | rfl
  · cases before with
    | nil =>
      have hrelative : path.isAbsolute = false := Path.isAbsolute_eq h (List.cons_ne_nil _ _)
      rw [Path.components, h, Path.stepsBefore]
      simp [hrelative]
    | cons first before =>
      rw [Path.components_eq h (fun hnil => absurd hnil (List.cons_ne_nil _ _))]
      simp [Path.stepOf, Path.isIdle]
  · rw [Path.components_eq h fun _ => rfl]
    simp [Path.stepOf, Path.isIdle]

/-- The folder is beside the archive exactly if the archive has more than dots for its name, and
    an extension that it is told by, or nothing behind its name. -/
theorem outputFolder_beside_iff (h : archive.Named before name idle) :
    (outputFolder archive).Beside archive ↔
      ¬ DotsOnly name ∧ (isArchiveName archive ∨ idle = []) := by
  rw [beside_iff h]
  by_cases hdots : DotsOnly name
  · -- the folder has no name of its own
    obtain ⟨step, hstep, hpieces⟩ := exists_pieces_above h hdots
    simp [hdots, components_ne_of_dots hstep hpieces]
  · by_cases hends : isArchiveName archive ∨ idle = []
    · obtain ⟨other, hother, hne, hpieces⟩ := exists_pieces_beside h hdots hends
      have hnamed : (outputFolder archive).Named before other [] :=
        ⟨hpieces, hother, fun _ hmem => absurd hmem List.not_mem_nil⟩
      exact iff_of_true ⟨other, hne, hnamed.components⟩ ⟨hdots, hends⟩
    · -- the folder has a name of its own behind that of the archive
      obtain ⟨less, other, hless, hother, hpieces⟩ := exists_pieces_below h hends
      have hcomponents : (outputFolder archive).components =
          Path.stepsBefore before ++ [.name name, .name other] := by
        rw [Path.components_eq hpieces fun _ => h.isName.isIdle,
          List.filterMap_cons_some h.isName.stepOf, List.filterMap_append,
          Path.filterMap_stepOf_idle hless]
        simp [hother.stepOf]
      simp [hends, hcomponents]

/-! ## On a disk -/

/-- The folder is absolute exactly if the archive is. -/
theorem isAbsolute_outputFolder (h : archive.Named before name idle) :
    (outputFolder archive).isAbsolute = archive.isAbsolute := by
  rw [Path.isAbsolute_eq h.pieces_eq h.isName.ne_nil]
  by_cases hdots : DotsOnly name
  · obtain ⟨step, hstep, hpieces⟩ := exists_pieces_above h hdots
    exact Path.isAbsolute_eq hpieces (ne_nil_of_dots hstep)
  · by_cases hends : isArchiveName archive ∨ idle = []
    · obtain ⟨other, hother, -, hpieces⟩ := exists_pieces_beside h hdots hends
      exact Path.isAbsolute_eq hpieces hother.ne_nil
    · obtain ⟨less, other, -, -, hpieces⟩ := exists_pieces_below h hends
      exact Path.isAbsolute_eq hpieces h.isName.ne_nil

/-- The folder is the archive or holds it exactly if the name of the archive is made of dots. -/
theorem outputFolder_above_iff (h : archive.Named before name idle) {disk : Disk}
    {place folder : List Name} (hplace : disk.locate archive = .ok place)
    (hfolder : disk.locate (outputFolder archive) = .ok folder) :
    folder <+: place ↔ DotsOnly name := by
  have hstart : disk.start (outputFolder archive) = disk.start archive := by
    rw [Disk.start, Disk.start, isAbsolute_outputFolder h]
  have hat : place = before.foldl Disk.move (disk.start archive) ++ [name] := by
    rw [Disk.locate_eq_foldl_move hplace, h.pieces_eq, List.foldl_append, List.foldl_cons,
      Disk.move_name h.isName, Disk.foldl_move_idle h.idle_behind]
  -- both ways go through the pieces in front of the name, so they part behind those
  have hfolder' := Disk.locate_eq_foldl_move hfolder
  rw [hstart] at hfolder'
  by_cases hdots : DotsOnly name
  · obtain ⟨step, hstep, hpieces⟩ := exists_pieces_above h hdots
    rw [hpieces, List.foldl_concat] at hfolder'
    refine iff_of_true ?_ hdots
    rw [hat, hfolder']
    rcases hstep with rfl | rfl
    · exact List.prefix_append _ _
    · exact (List.dropLast_prefix _).trans (List.prefix_append _ _)
  · refine iff_of_false ?_ hdots
    by_cases hends : isArchiveName archive ∨ idle = []
    · obtain ⟨other, hother, hne, hpieces⟩ := exists_pieces_beside h hdots hends
      rw [hpieces, List.foldl_concat, Disk.move_name hother] at hfolder'
      simp [hat, hfolder', hne]
    · -- from the place of the archive a name leads further down
      obtain ⟨less, other, hless, hother, hpieces⟩ := exists_pieces_below h hends
      rw [hpieces, List.foldl_append, List.foldl_cons, Disk.move_name h.isName,
        List.foldl_concat, Disk.foldl_move_idle hless, Disk.move_name hother, ← hat] at hfolder'
      rw [hfolder']
      exact fun hprefix => absurd hprefix.length_le (by simp)

/-- Removing the folder leaves what stands at the place of the archive as it is. -/
theorem unchanged_deleteTree (h : archive.Named before name idle) (hdots : ¬ DotsOnly name)
    {disk : Disk} {place : List Name} (hplace : disk.locate archive = .ok place)
    (parallel : Bool) :
    disk.Unchanged ((App.ofArchive archive parallel).deleteTree disk).value place := by
  show disk.Unchanged (disk.removeTree (outputFolder archive)).disk place
  cases hfolder : disk.locate (outputFolder archive) with
  | error error =>
    rw [Disk.removeTree_of_error hfolder]
    rfl
  | ok folder =>
    refine Disk.unchanged_removeTree hfolder ?_
    rwa [outputFolder_above_iff h hplace hfolder]

/-- The output folder of an archive stands beside it, under a name of its own, unless the name
    of the archive is made of dots, or a separator stands behind a name that is not told by the
    extension. Where both are on a disk, the folder is the archive or holds it only in the first
    of these cases; in all others the archive is not touched when the folder is removed. -/
theorem outputFolder_beside_archive (archive : Path) (name : List Char)
    (h : archive.components.getLast? = some (.name name)) :
    ((outputFolder archive).Beside archive ↔
      ¬ DotsOnly name ∧ (isArchiveName archive ∨ archive.pieces.getLast? = some name)) ∧
    (∀ (disk : Disk) (place folder : List Name), disk.locate archive = .ok place →
      disk.locate (outputFolder archive) = .ok folder → (folder <+: place ↔ DotsOnly name)) ∧
    (¬ DotsOnly name → ∀ (disk : Disk) (place : List Name) (parallel : Bool),
      disk.locate archive = .ok place →
        disk.Unchanged ((App.ofArchive archive parallel).deleteTree disk).value place) := by
  obtain ⟨before, idle, hnamed⟩ := Path.exists_named h
  refine ⟨?_, fun disk place folder hplace hfolder => ?_,
    fun hdots disk place parallel hplace => ?_⟩
  · rw [hnamed.getLast?_pieces_iff]
    exact outputFolder_beside_iff hnamed
  · exact outputFolder_above_iff hnamed hplace hfolder
  · exact unchanged_deleteTree hnamed hdots hplace parallel

/-- A name with a dot in front, another extension within, and capitals in the last one. -/
theorem outputFolder_beside_archive_hidden :
    let archive : Path := .ofString "in/.app.v2.Apk/"
    archive.components.getLast? = some (.name ".app.v2.Apk".toList) ∧
      (outputFolder archive).Beside archive ∧
      ∀ (disk : Disk) (place : List Name) (parallel : Bool), disk.locate archive = .ok place →
        disk.Unchanged ((App.ofArchive archive parallel).deleteTree disk).value place := by
  intro archive
  have hlast : archive.components.getLast? = some (.name ".app.v2.Apk".toList) := by decide
  have hdots : ¬ DotsOnly ".app.v2.Apk".toList := by
    rintro ⟨_, _, rfl | rfl, hname, -⟩ <;> simp at hname
  obtain ⟨hbeside, -, hkept⟩ := outputFolder_beside_archive archive _ hlast
  exact ⟨hlast, hbeside.mpr ⟨hdots, .inl (by decide)⟩, hkept hdots⟩

/-- A file, and a folder with an archive in it that has no name but the extension. -/
def dottedDisk : Disk :=
  ⟨[("keep.txt".toList, .file .empty false),
    ("sub".toList, .folder [("..apk".toList, .file .empty false)])], []⟩

/-- The folder for `sub/..apk` is `sub/..`, not beside the archive but the folder that holds
    `sub`. With it goes all that is there. -/
theorem not_beside_dotted :
    let archive : Path := .ofString "sub/..apk"
    archive.components.getLast? = some (.name "..apk".toList) ∧
      outputFolder archive = .ofString "sub/.." ∧
      (outputFolder archive).components = [.name "sub".toList, .parent] ∧
      ¬ (outputFolder archive).Beside archive ∧
      dottedDisk.isFile archive ∧
      dottedDisk.locate archive = .ok ["sub".toList, "..apk".toList] ∧
      dottedDisk.locate (outputFolder archive) = .ok [] ∧
      ((App.ofArchive archive false).deleteTree dottedDisk).value.entries = [] := by
  intro archive
  have hcomponents : (outputFolder archive).components = [.name "sub".toList, .parent] := by decide
  refine ⟨by decide, by decide, hcomponents, ?_, by decide, by decide, by decide, rfl⟩
  rintro ⟨parent, other, name, hfolder, -, -⟩
  have hlast := congrArg List.getLast? (hcomponents.symm.trans hfolder)
  rw [List.getLast?_concat] at hlast
  cases hlast

end Tool

end SmaliSieve
