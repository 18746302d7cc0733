/-
  SmaliSieve.Proofs.Tree.Replacing

  Disks that differ in no more than what is in one file.

  Everything that does not read this file is the same on both: where paths lead to, which
  files and folders there are, and what is in the other files (`Rewritten.locate`,
  `Rewritten.isFile`, `Rewritten.readBytes`). In the folder that holds the file the entries
  stand in the same order (`Rewritten.find_folder`).
-/

import SmaliSieve.Proofs.Tree.Frame

namespace SmaliSieve

namespace FileTree

/-- In the folder that holds the changed entry, the other entries stay where they are. -/
theorem at?_alter_front (change : Option FileTree → Option FileTree) {front : List Name}
    (name : Name) {tree : FileTree} {entries : List (Name × FileTree)}
    (h : tree.at? front = some (folder entries)) :
    (alter change (front ++ [name]) (some tree)).bind (·.at? front) =
      some (folder (alterEntry name change entries)) := by
  induction front generalizing tree with
  | nil =>
    rw [at?_nil, Option.some.injEq] at h
    subst h
    exact at?_nil _
  | cons first front ih =>
    obtain ⟨others, rfl⟩ := isFolder_eq_true_iff.mp (isFolder_of_at?_cons h)
    rw [at?_folder, Option.bind_eq_some_iff] at h
    obtain ⟨found, hfound, hbelow⟩ := h
    show (folder (alterEntry first (alter change (front ++ [name])) others)).at?
      (first :: front) = _
    rw [at?_folder, lookup_alterEntry_concat change hfound]
    exact ih hbelow

end FileTree

namespace Disk

/-- The other disk differs from this one in no more than what is in the file at the
    location. -/
def Rewritten (disk other : Disk) (location : List Name) : Prop :=
  ∃ old new runnable, disk.at? location = some (.file old runnable) ∧
    other = disk.alter location fun _ => some (.file new runnable)

variable {disk other : Disk} {location : List Name}

theorem at?_alter_front (disk : Disk) (change : Option FileTree → Option FileTree)
    {front : List Name} {name : Name} {entries : List (Name × FileTree)}
    (hfolder : disk.at? front = some (.folder entries)) :
    (disk.alter (front ++ [name]) change).at? front =
      some (.folder (FileTree.alterEntry name change entries)) := by
  have hroot : disk.root.at? front = some (.folder entries) := hfolder
  have hat := FileTree.at?_alter_front change name hroot
  cases front with
  | nil => exact hat
  | cons first front => exact hat

/-- The file is an entry of a folder. -/
theorem exists_folder_of_file {contents : ByteArray} {runnable : Bool}
    (h : disk.at? location = some (.file contents runnable)) :
    ∃ front name entries, location = front ++ [name] ∧
      disk.at? front = some (.folder entries) ∧
      entries.lookup name = some (.file contents runnable) := by
  rcases List.eq_nil_or_concat' location with rfl | ⟨front, name, rfl⟩
  · rw [at?_nil] at h
    cases h
  · obtain ⟨tree, htree, hentry⟩ : ∃ tree, disk.at? front = some tree ∧
        tree.at? [name] = some (.file contents runnable) := by
      rwa [at?_append, Option.bind_eq_some_iff] at h
    obtain ⟨entries, rfl⟩ :=
      FileTree.isFolder_eq_true_iff.mp (FileTree.isFolder_of_at?_cons hentry)
    exact ⟨front, name, entries, rfl, htree, (at?_concat_eq_some_iff htree).mp h⟩

namespace Rewritten

/-- The file is there on both disks. -/
theorem file (h : disk.Rewritten other location) :
    ∃ old new runnable, disk.at? location = some (.file old runnable) ∧
      other.at? location = some (.file new runnable) := by
  obtain ⟨old, new, runnable, hold, rfl⟩ := h
  obtain ⟨front, name, entries, rfl, hfolder, -⟩ := exists_folder_of_file hold
  exact ⟨old, new, runnable, hold, at?_alter_concat disk _ hfolder rfl⟩

/-- Everywhere else the same stands. -/
theorem unchanged (h : disk.Rewritten other location) {place : List Name}
    (hne : place ≠ location) : Unchanged disk other place := by
  obtain ⟨old, new, runnable, hold, hnew⟩ := h.file
  by_cases hbelow : location <+: place
  · -- nothing stands below a file
    obtain ⟨more, rfl⟩ := hbelow
    cases more with
    | nil => exact absurd (List.append_nil _) hne
    | cons name more =>
      have hnone (disk : Disk) {contents : ByteArray} {runnable : Bool}
          (hfile : disk.at? location = some (.file contents runnable)) :
          disk.at? (location ++ name :: more) = none := by
        rw [at?_append, hfile]
        rfl
      rw [Unchanged, hnone disk hold, hnone other hnew]
  · obtain ⟨_, _, _, -, rfl⟩ := h
    exact unchanged_alter disk _ hbelow

theorem current (h : disk.Rewritten other location) : disk.current = other.current := by
  obtain ⟨_, _, _, -, rfl⟩ := h
  exact (current_alter ..).symm

/-- Something stands where something stood, files where files stood and folders where folders
    stood. -/
theorem exists_at? (h : disk.Rewritten other location) {place : List Name} {tree : FileTree}
    (hat : disk.at? place = some tree) :
    ∃ found, other.at? place = some found ∧ found.isFile = tree.isFile ∧
      found.isFolder = tree.isFolder := by
  by_cases hplace : place = location
  · obtain ⟨old, new, runnable, hold, hnew⟩ := h.file
    rw [hplace] at hat ⊢
    obtain rfl : .file old runnable = tree := Option.some.inj (hold.symm.trans hat)
    exact ⟨_, hnew, rfl, rfl⟩
  · obtain ⟨found, hfound, hkind⟩ := (h.unchanged hplace).exists_kind hat
    exact ⟨found, hfound, FileTree.isFile_of_kind_eq hkind, FileTree.isFolder_of_kind_eq hkind⟩

theorem at?_eq_none (h : disk.Rewritten other location) {place : List Name}
    (hat : disk.at? place = none) : other.at? place = none := by
  have hne : place ≠ location := by
    rintro rfl
    obtain ⟨_, _, _, hold, -⟩ := h
    rw [hat] at hold
    cases hold
  have hkind := h.unchanged hne
  rwa [Unchanged, hat, Option.map_none, Option.map_eq_none_iff] at hkind

theorem isSome_at? (h : disk.Rewritten other location) (place : List Name) :
    (other.at? place).isSome = (disk.at? place).isSome := by
  cases hat : disk.at? place with
  | none => rw [h.at?_eq_none hat]
  | some tree =>
    obtain ⟨found, hfound, -⟩ := h.exists_at? hat
    rw [hfound]
    rfl

theorem folder_at? (h : disk.Rewritten other location) {place : List Name}
    {entries : List (Name × FileTree)} (hfolder : disk.at? place = some (.folder entries)) :
    ∃ others, other.at? place = some (.folder others) ∧
      ∀ piece, (others.lookup piece).isSome = (entries.lookup piece).isSome := by
  obtain ⟨found, hfound, -, hsort⟩ := h.exists_at? hfolder
  obtain ⟨others, rfl⟩ := FileTree.isFolder_eq_true_iff.mp hsort
  refine ⟨others, hfound, fun piece => ?_⟩
  have hnext := h.isSome_at? (place ++ [piece])
  rw [at?_append, at?_append, hfolder, hfound] at hnext
  simpa [FileTree.at?_folder, FileTree.at?_nil] using hnext

theorem step (h : disk.Rewritten other location) (place : List Name) (piece : List Char) :
    other.step place piece = disk.step place piece := by
  cases hat : disk.at? place with
  | none => rw [Disk.step, Disk.step, hat, h.at?_eq_none hat]
  | some tree =>
    cases hsort : tree.isFolder with
    | false =>
      obtain ⟨found, hfound, -, hfolder⟩ := h.exists_at? hat
      rw [step_of_leaf hat hsort, step_of_leaf hfound (hfolder.trans hsort)]
    | true =>
      -- the step looks at no more than whether there is an entry of this name
      obtain ⟨entries, rfl⟩ := FileTree.isFolder_eq_true_iff.mp hsort
      obtain ⟨others, hothers, hentry⟩ := h.folder_at? hat
      rw [Disk.step, Disk.step, hat, hothers]
      simp only [hentry]

/-- Paths lead to the same places. -/
theorem locate (h : disk.Rewritten other location) (path : Path) :
    other.locate path = disk.locate path := by
  have hstep : other.step = disk.step := funext fun place => funext (h.step place)
  rw [Disk.locate, Disk.locate, walk, walk, hstep, start_eq_of_current h.current]

/-- What a path leads to on both disks: nothing, or things of one sort. -/
theorem find_cases (h : disk.Rewritten other location) (path : Path) :
    (∃ error, disk.find path = .error error ∧ other.find path = .error error) ∨
      ∃ tree found, disk.find path = .ok tree ∧ other.find path = .ok found ∧
        found.isFile = tree.isFile ∧ found.isFolder = tree.isFolder := by
  rw [find, find, h.locate]
  cases disk.locate path with
  | error error => exact .inl ⟨error, rfl, rfl⟩
  | ok place =>
    dsimp only [Except.bind]
    cases hdisk : disk.at? place with
    | none =>
      rw [h.at?_eq_none hdisk]
      exact .inl ⟨.notFound, rfl, rfl⟩
    | some tree =>
      obtain ⟨found, hfound, hsort⟩ := h.exists_at? hdisk
      rw [hfound]
      exact .inr ⟨tree, found, rfl, rfl, hsort⟩

/-- The same paths lead to files. -/
theorem isFile (h : disk.Rewritten other location) (path : Path) :
    other.isFile path = disk.isFile path := by
  rw [Disk.isFile, Disk.isFile]
  rcases h.find_cases path with ⟨error, hdisk, hother⟩ | ⟨tree, found, hdisk, hother, hfile, -⟩
  · rw [hdisk, hother]
  · rw [hdisk, hother]
    exact hfile

/-- The same paths lead to folders. -/
theorem isFolder (h : disk.Rewritten other location) (path : Path) :
    other.isFolder path = disk.isFolder path := by
  rw [Disk.isFolder, Disk.isFolder]
  rcases h.find_cases path with ⟨error, hdisk, hother⟩ | ⟨tree, found, hdisk, hother, -, hfolder⟩
  · rw [hdisk, hother]
  · rw [hdisk, hother]
    exact hfolder

/-- In any other file is the same. -/
theorem readBytes (h : disk.Rewritten other location) {path : Path}
    (helse : disk.locate path ≠ .ok location) : other.readBytes path = disk.readBytes path := by
  rw [Disk.readBytes, Disk.readBytes, find, find, h.locate]
  cases hlocate : disk.locate path with
  | error error => rfl
  | ok place =>
    have hne : place ≠ location := fun heq => helse (heq ▸ hlocate)
    dsimp only [Except.bind]
    cases hdisk : disk.at? place with
    | none => rw [h.at?_eq_none hdisk]
    | some tree =>
      obtain ⟨found, hfound, hkind⟩ := (h.unchanged hne).exists_kind hdisk
      rw [hfound]
      exact FileTree.read_of_kind_eq hkind

theorem readText (h : disk.Rewritten other location) {path : Path}
    (helse : disk.locate path ≠ .ok location) : other.readText path = disk.readText path := by
  rw [Disk.readText, Disk.readText, h.readBytes helse]

/-- The folder with the file has the same entries in the same order, but for this file. -/
theorem find_folder {front : List Name} {name : Name} (h : disk.Rewritten other (front ++ [name]))
    {path : Path} {entries : List (Name × FileTree)}
    (hlocate : disk.locate path = .ok front) (hfind : disk.find path = .ok (.folder entries)) :
    ∃ contents runnable, other.find path = .ok (.folder
      (FileTree.alterEntry name (fun _ => some (.file contents runnable)) entries)) := by
  have hother := h.locate path
  obtain ⟨_, new, runnable, -, rfl⟩ := h
  obtain ⟨place, hplace, hfolder⟩ := find_eq_ok_iff.mp hfind
  obtain rfl : front = place := Except.ok.inj (hlocate.symm.trans hplace)
  exact ⟨new, runnable, find_eq_ok_iff.mpr
    ⟨front, hother.trans hlocate, at?_alter_front disk _ hfolder⟩⟩

end Rewritten

end Disk

end SmaliSieve
