/-
  SmaliSieve.Proofs.Tree.Writing

  Writing a file and removing a tree.

  A file that was written has what was written in it (`find_write`), and a text that was
  written is read again (`readText_write`), unless a device took it in: the way to the file leads
  through folders, and what is changed is none. Removing a tree changes nothing outside of it
  (`unchanged_removeTree`), because the entry that is removed in the end is the place that the
  path led to in the beginning. That is a matter of the text of the path (`step_eq_move`).
-/

import SmaliSieve.Proofs.Tree.Frame
import SmaliSieve.Tree.Change

namespace SmaliSieve.Disk

variable {disk other : Disk} {location next : List Name}

/-! ## Writing a file -/

theorem exists_trailing {pieces front : List (List Char)} {last : List Char}
    (h : pieces.reverse.dropWhile List.isEmpty = last :: front) :
    last ≠ [] ∧
      pieces = front.reverse ++ last :: (pieces.reverse.takeWhile List.isEmpty).reverse := by
  constructor
  · rintro rfl
    have hhead := List.head?_dropWhile_not List.isEmpty pieces.reverse
    rw [h] at hhead
    cases hhead
  · have hsplit := List.takeWhile_append_dropWhile (p := List.isEmpty) (l := pieces.reverse)
    rw [h] at hsplit
    have hreverse := congrArg List.reverse hsplit
    rw [List.reverse_reverse, List.reverse_append, List.reverse_cons, List.append_assoc,
      List.singleton_append] at hreverse
    exact hreverse.symm

theorem place_eq_name {path : Path} {folder : List Name} {name : Name} {slash : Bool}
    (h : disk.place path = .ok ⟨folder, .name name slash⟩) :
    path.defect? = none ∧ Path.IsName name ∧
      (∃ entries, disk.at? folder = some (.folder entries)) ∧
      ∃ front empties, path.pieces = front ++ name :: empties ∧ (∀ piece ∈ empties, piece = []) ∧
        (slash = false → empties = []) ∧ disk.walk (disk.start path) front = .ok folder := by
  cases hdefect : path.defect? with
  | some error =>
    rw [place, hdefect] at h
    cases h
  | none =>
    rw [place, hdefect] at h
    dsimp only at h
    cases hdrop : path.pieces.reverse.dropWhile List.isEmpty with
    | nil =>
      rw [hdrop] at h
      cases h
    | cons last front =>
      rw [hdrop] at h
      obtain ⟨found, hwalk, h⟩ := bind_eq_ok_iff.mp h
      split at h
      · next entries hfolder =>
        -- of the last steps, two are no names
        by_cases hhere : last = ['.']
        · rw [if_pos hhere] at h
          cases h
        · by_cases hparent : last = ['.', '.']
          · rw [if_neg hhere, if_pos hparent] at h
            cases h
          · rw [if_neg hhere, if_neg hparent] at h
            obtain ⟨rfl, hlast⟩ := Place.mk.inj (Except.ok.inj h)
            obtain ⟨rfl, hslash⟩ := LastStep.name.inj hlast
            obtain ⟨hne, hpieces⟩ := exists_trailing hdrop
            have hmem : last ∈ Text.segments '/' path.chars := by
              show last ∈ path.pieces
              rw [hpieces]
              simp
            refine ⟨rfl, ⟨hne, hhere, hparent, Text.not_mem_of_mem_segments hmem⟩,
              ⟨entries, hfolder⟩, front.reverse, _, hpieces, fun piece hpiece => ?_,
              fun hnone => ?_, hwalk⟩
            · have hempty := List.mem_takeWhile_imp (List.mem_reverse.mp hpiece)
              exact List.isEmpty_iff.mp hempty
            · rw [hnone] at hslash
              simpa using hslash
      · cases h
      · cases h

/-- What is written goes to an entry of a folder that is there. In place of a file or of nothing
    it makes a file, and otherwise a device takes it in. -/
theorem write_eq_ok {path : Path} {contents : ByteArray} {written : Disk}
    (h : disk.write path contents = .ok written) :
    ∃ front folder name, path.defect? = none ∧ Path.IsName name ∧
      Text.byteLength name ≤ longestName ∧ path.pieces = front ++ [name] ∧
      disk.walk (disk.start path) front = .ok folder ∧
      (∃ entries, disk.at? folder = some (.folder entries)) ∧
      ((∀ entries, disk.at? (folder ++ [name]) ≠ some (.folder entries)) ∧
          (∃ runnable, written =
            disk.alter (folder ++ [name]) fun _ => some (.file contents runnable)) ∨
        (∃ reading, disk.at? (folder ++ [name]) = some (.device reading (.ok ()))) ∧
          written = disk) := by
  rw [write, changeFile] at h
  obtain ⟨⟨folder, last⟩, hplace, h⟩ := bind_eq_ok_iff.mp h
  obtain ⟨name, rfl⟩ : ∃ name, last = .name name false := by
    -- a separator behind the name asks for a folder, and the other steps lead to one
    cases last with
    | root => cases h
    | here => cases h
    | parent => cases h
    | name name slash =>
      cases slash with
      | true => cases h
      | false => exact ⟨name, rfl⟩
  obtain ⟨hdefect, hname, hfolder, front, empties, hpieces, -, hnone, hwalk⟩ :=
    place_eq_name hplace
  rw [hnone rfl] at hpieces
  dsimp only at h
  by_cases hlong : longestName < Text.byteLength name
  · rw [if_pos hlong] at h
    cases h
  · rw [if_neg hlong] at h
    refine ⟨front, folder, name, hdefect, hname, Nat.not_lt.mp hlong, hpieces, hwalk, hfolder, ?_⟩
    split at h
    · cases h
    · next old runnable hfile =>
      exact .inl ⟨by simp [hfile], runnable, (Except.ok.inj h).symm⟩
    · next reading writing hdevice =>
      cases writing with
      | error error => cases h
      | ok _ => exact .inr ⟨⟨reading, hdevice⟩, (Except.ok.inj h).symm⟩
    · next hfresh =>
      exact .inl ⟨by simp [hfresh], false, (Except.ok.inj h).symm⟩

/-- All places that a way comes to are folders, but for the last one. -/
theorem folder_of_prefix {start : List Name} {front pieces : List (List Char)}
    (h : disk.walk start pieces = .ok location) (hpart : front <+: pieces)
    (hnext : disk.walk start front = .ok next) :
    next = location ∨ ∃ entries, disk.at? next = some (.folder entries) := by
  obtain ⟨more, rfl⟩ := hpart
  obtain ⟨middle, hfront, hmore⟩ := walk_append_eq_ok_iff.mp h
  obtain rfl : middle = next := Except.ok.inj (hfront.symm.trans hnext)
  cases more with
  | nil => exact .inl (Except.ok.inj hmore)
  | cons piece more =>
    obtain ⟨_, hstep, -⟩ := walk_cons_eq_ok_iff.mp hmore
    obtain ⟨entries, hfolder, -⟩ := step_eq_ok_iff.mp hstep
    exact .inr ⟨entries, hfolder⟩

theorem folder_of_above {front more : List Name} {entries : List (Name × FileTree)}
    (h : disk.at? (front ++ more) = some (.folder entries)) :
    ∃ others, disk.at? front = some (.folder others) := by
  rw [at?_append, Option.bind_eq_some_iff] at h
  obtain ⟨tree, hfront, hmore⟩ := h
  obtain ⟨others, rfl⟩ :=
    FileTree.isFolder_eq_true_iff.mp (FileTree.isFolder_of_at? hmore rfl)
  exact ⟨others, hfront⟩

/-- A new file in a folder is found by the way to the folder and its name. -/
theorem find_alter_file {path : Path} {front : List (List Char)} {folder : List Name} {name : Name}
    {entries : List (Name × FileTree)} {contents : ByteArray} {runnable : Bool}
    (hdefect : path.defect? = none) (hname : Path.IsName name)
    (hlength : Text.byteLength name ≤ longestName) (hpieces : path.pieces = front ++ [name])
    (hwalk : disk.walk (disk.start path) front = .ok folder)
    (hfolder : disk.at? folder = some (.folder entries))
    (hfree : ∀ entries, disk.at? (folder ++ [name]) ≠ some (.folder entries)) :
    (disk.alter (folder ++ [name]) fun _ => some (.file contents runnable)).find path =
      .ok (.file contents runnable) := by
  set written := disk.alter (folder ++ [name]) fun _ => some (.file contents runnable) with hdef
  -- the way leads through folders, and what the file takes the place of is none
  have hkept : ∀ place, (∃ others, disk.at? place = some (.folder others)) →
      Unchanged disk written place := by
    rintro place ⟨others, hplace⟩
    refine unchanged_alter disk _ ?_
    rintro ⟨more, rfl⟩
    obtain ⟨others', hothers⟩ := folder_of_above hplace
    exact hfree others' hothers
  have hway : written.walk (written.start path) front = .ok folder := by
    rw [← start_eq_of_current (current_alter ..).symm]
    refine walk_of_unchanged (fun front' hpart place hplace => hkept place ?_) hwalk
    rcases folder_of_prefix hwalk hpart hplace with rfl | hplace
    · exact ⟨entries, hfolder⟩
    · exact hplace
  have hat : written.at? (folder ++ [name]) = some (.file contents runnable) :=
    at?_alter_concat disk _ hfolder rfl
  obtain ⟨others, hothers⟩ := (hkept folder ⟨entries, hfolder⟩).folder hfolder
  have hentry := (at?_concat_eq_some_iff hothers).mp hat
  have hlocate : written.locate path = .ok (folder ++ [name]) := by
    rw [locate_eq_ok_iff, hpieces]
    exact ⟨hdefect, walk_concat_eq_ok_iff.mpr ⟨folder, hway,
      (step_name_eq_ok_iff hname).mpr ⟨rfl, hlength, others, hothers, by rw [hentry]; rfl⟩⟩⟩
  exact find_eq_ok_iff.mpr ⟨_, hlocate, hat⟩

/-- A device at the path takes in what is written. -/
def TakesIn (disk : Disk) (path : Path) : Prop :=
  ∃ reading, disk.find path = .ok (.device reading (.ok ()))

/-- What was written is all that is in the file, unless a device took it in, and then the disk is
    as it was. -/
theorem find_write {path : Path} {contents : ByteArray} {written : Disk}
    (h : disk.write path contents = .ok written) :
    (∃ runnable, written.find path = .ok (.file contents runnable)) ∨
      disk.TakesIn path ∧ written = disk := by
  obtain ⟨front, folder, name, hdefect, hname, hlength, hpieces, hwalk, ⟨entries, hfolder⟩,
    ⟨hfree, runnable, rfl⟩ | ⟨⟨reading, hdevice⟩, rfl⟩⟩ := write_eq_ok h
  · exact .inl ⟨runnable,
      find_alter_file hdefect hname hlength hpieces hwalk hfolder hfree⟩
  · have hentry := (at?_concat_eq_some_iff hfolder).mp hdevice
    have hlocate : written.locate path = .ok (folder ++ [name]) := by
      rw [locate_eq_ok_iff, hpieces]
      exact ⟨hdefect, walk_concat_eq_ok_iff.mpr ⟨folder, hwalk,
        (step_name_eq_ok_iff hname).mpr ⟨rfl, hlength, entries, hfolder, by rw [hentry]; rfl⟩⟩⟩
    exact .inr ⟨⟨reading, find_eq_ok_iff.mpr ⟨_, hlocate, hdevice⟩⟩, rfl⟩

theorem textOf_toUTF8 (text : String) : textOf text.toUTF8 = .ok text := by
  have hvalid : String.fromUTF8? text.toUTF8 = some text := dif_pos text.isValidUTF8
  rw [textOf, hvalid]

/-- A text that was written is the text of the file, unless a device took it in. -/
theorem readText_write {path : Path} {text : String} {written : Disk}
    (h : disk.write path text.toUTF8 = .ok written) :
    written.readText path = .ok text ∨ disk.TakesIn path ∧ written = disk := by
  refine (find_write h).imp_left ?_
  rintro ⟨runnable, hfile⟩
  rw [readText, readBytes, hfile]
  exact textOf_toUTF8 text

/-! ## Removing a tree -/

/-- Where a step leads to, if it is possible. -/
def move (location : List Name) (piece : List Char) : List Name :=
  if Path.isIdle piece then location
  else if piece = ['.', '.'] then location.dropLast
  else location ++ [piece]

/-- Where a step leads to is a matter of the text, whatever the disk holds. -/
theorem step_eq_move {piece : List Char} (h : disk.step location piece = .ok next) :
    next = move location piece := by
  obtain ⟨entries, -, ⟨hidle, hnext⟩ | ⟨rfl, hnext⟩ | ⟨hidle, hparent, -, -, hnext⟩⟩ :=
    step_eq_ok_iff.mp h
  · rw [hnext, move, if_pos hidle]
  · rw [hnext]
    rfl
  · rw [hnext, move, if_neg hidle, if_neg hparent]

theorem walk_eq_foldl_move {start : List Name} {pieces : List (List Char)}
    (h : disk.walk start pieces = .ok location) : location = pieces.foldl move start := by
  induction pieces generalizing start with
  | nil => exact (Except.ok.inj h).symm
  | cons piece more ih =>
    obtain ⟨middle, hstep, hmore⟩ := walk_cons_eq_ok_iff.mp h
    rw [List.foldl_cons, ← step_eq_move hstep]
    exact ih hmore

theorem locate_eq_foldl_move {path : Path} {place : List Name}
    (h : disk.locate path = .ok place) : place = path.pieces.foldl move (disk.start path) :=
  walk_eq_foldl_move (locate_eq_ok_iff.mp h).2

theorem move_name {name : Name} (h : Path.IsName name) (location : List Name) :
    move location name = location ++ [name] := by
  rw [move, if_neg (by simp [h.isIdle]), if_neg h.ne_parent]

theorem foldl_move_idle {idle : List (List Char)} (h : ∀ piece ∈ idle, Path.isIdle piece)
    (start : List Name) : idle.foldl move start = start := by
  induction idle with
  | nil => rfl
  | cons piece more ih =>
    obtain ⟨hpiece, hmore⟩ := List.forall_mem_cons.mp h
    rw [List.foldl_cons, move, if_pos hpiece, ih hmore]

/-- The entry that a path names is where the path leads to, also if it led there on another
    disk with the same working directory. -/
theorem place_eq_of_locate {path : Path} {folder place : List Name} {name : Name} {slash : Bool}
    (hcurrent : disk.current = other.current) (hlocate : disk.locate path = .ok place)
    (hplace : other.place path = .ok ⟨folder, .name name slash⟩) : place = folder ++ [name] := by
  obtain ⟨-, hname, -, front, empties, hpieces, hempty, -, hwalk⟩ := place_eq_name hplace
  have hfolder : folder = front.foldl move (disk.start path) := by
    rw [start_eq_of_current hcurrent]
    exact walk_eq_foldl_move hwalk
  have hidle : ∀ piece ∈ empties, Path.isIdle piece := by
    intro piece hpiece
    rw [hempty piece hpiece]
    rfl
  rw [locate_eq_foldl_move hlocate, hpieces, List.foldl_append, List.foldl_cons, ← hfolder,
    move_name hname, foldl_move_idle hidle]

/-- Removing the tree at a path changes nothing that is not at or below the place that the path
    leads to. -/
theorem unchanged_removeTree {path : Path} {place : List Name}
    (hlocate : disk.locate path = .ok place) (houtside : ¬ place <+: location) :
    Unchanged disk (disk.removeTree path).disk location := by
  rw [removeTree, hlocate]
  dsimp only
  split
  · -- first all that is in the folder goes, and then the folder, if its entry can be removed
    have hemptied : Unchanged disk (disk.alter place fun _ => some (.folder [])) location :=
      unchanged_alter disk _ houtside
    split
    · exact hemptied
    · exact hemptied
    · exact hemptied
    · exact hemptied
    · exact hemptied
    · next folder name slash hplace =>
      have hsame : place = folder ++ [name] :=
        place_eq_of_locate (current_alter ..).symm hlocate hplace
      refine Eq.trans (unchanged_alter _ _ ?_) hemptied
      rwa [← hsame]
  · rfl
  · rfl

theorem removeTree_of_error {path : Path} {error : OsError} (h : disk.locate path = .error error) :
    (disk.removeTree path).disk = disk := by
  rw [removeTree, h]

end SmaliSieve.Disk
