/-
  SmaliSieve.Proofs.Tree.Reordering

  Trees that hold the same and differ in the order of enumeration only.

  A folder lists its entries in an order of its own. Two trees are `Reordered` if one
  becomes the other by putting entries of folders into another order, as often and as deep
  down as one likes. In a `Proper` tree no name occurs twice in a folder, so a place is found
  whatever the order is: reordered trees are `Alike`, they have the same files and folders
  at the same places (`Reordered.alike`). On disks that are alike every path leads to the
  same place (`Alike.locate`).
-/

import Mathlib.Data.List.Nodup
import SmaliSieve.Proofs.Path.Components
import SmaliSieve.Tree.Reading

namespace SmaliSieve

namespace FileTree

/-! ## Proper trees -/

/-- The entries of every folder have names that may stand in a path, and no two of them
    have the same one. -/
inductive Proper : FileTree → Prop
  | file (contents : ByteArray) (runnable : Bool) : Proper (.file contents runnable)
  | folder {entries : List (Name × FileTree)} (distinct : (entries.map (·.1)).Nodup)
      (names : ∀ entry ∈ entries, Path.IsName entry.1)
      (trees : ∀ entry ∈ entries, Proper entry.2) : Proper (.folder entries)
  | device (reading : Except OsError ByteArray) (writing : Except OsError Unit) :
      Proper (.device reading writing)

theorem Proper.nil : Proper (.folder []) :=
  .folder List.nodup_nil (by simp) (by simp)

theorem Proper.cons {entries : List (Name × FileTree)} {name : Name} {tree : FileTree}
    (hname : Path.IsName name) (fresh : name ∉ entries.map (·.1)) (htree : tree.Proper)
    (hrest : Proper (.folder entries)) : Proper (.folder ((name, tree) :: entries)) := by
  cases hrest with
  | folder distinct names trees =>
    exact .folder (List.nodup_cons.mpr ⟨fresh, distinct⟩)
      (List.forall_mem_cons.mpr ⟨hname, names⟩) (List.forall_mem_cons.mpr ⟨htree, trees⟩)

/-- Where no name occurs twice, the entry of a name is the one that is looked up. -/
theorem lookup_eq_some_iff_mem {entries : List (Name × FileTree)} {name : Name}
    {tree : FileTree} (distinct : (entries.map (·.1)).Nodup) :
    entries.lookup name = some tree ↔ (name, tree) ∈ entries := by
  induction entries with
  | nil => simp
  | cons entry rest ih =>
    obtain ⟨key, first⟩ := entry
    obtain ⟨hkey, hrest⟩ := List.nodup_cons.mp distinct
    by_cases hname : name = key
    · subst hname
      have hnot : (name, tree) ∉ rest := fun hmem => hkey (List.mem_map.mpr ⟨_, hmem, rfl⟩)
      simp [hnot, eq_comm]
    · have hbeq : (name == key) = false := by simpa using hname
      simp [List.lookup_cons, hbeq, hname, ih hrest]

/-! ## Places -/

theorem at?_nil (tree : FileTree) : tree.at? [] = some tree := by
  cases tree <;> rfl

theorem at?_folder (entries : List (Name × FileTree)) (name : Name) (more : List Name) :
    (folder entries).at? (name :: more) = (entries.lookup name).bind (·.at? more) := rfl

theorem at?_append (tree : FileTree) (location more : List Name) :
    tree.at? (location ++ more) = (tree.at? location).bind (·.at? more) := by
  induction location generalizing tree with
  | nil => rw [List.nil_append, at?_nil, Option.bind_some]
  | cons name location ih =>
    cases tree with
    | file contents runnable => rfl
    | device reading writing => rfl
    | folder entries =>
      rw [List.cons_append, at?_folder, at?_folder]
      cases entries.lookup name with
      | none => rfl
      | some tree => exact ih tree

/-- Only a folder has something below it. -/
theorem isFolder_of_at?_cons {tree found : FileTree} {name : Name} {more : List Name}
    (h : tree.at? (name :: more) = some found) : tree.isFolder := by
  cases tree with
  | folder entries => rfl
  | file contents runnable => cases h
  | device reading writing => cases h

/-- At and below what is no folder there is nothing else. -/
theorem at?_eq_some_iff_of_leaf {tree found : FileTree} (h : tree.isFolder = false)
    {location : List Name} : tree.at? location = some found ↔ location = [] ∧ tree = found := by
  cases location with
  | nil => simp [at?_nil]
  | cons name more =>
    refine ⟨fun hfound => ?_, fun hnil => absurd hnil.1 (List.cons_ne_nil _ _)⟩
    rw [isFolder_of_at?_cons hfound] at h
    cases h

/-- Only a folder has a folder at or below it. -/
theorem isFolder_of_at? {tree found : FileTree} {location : List Name}
    (h : tree.at? location = some found) (hfolder : found.isFolder) : tree.isFolder := by
  cases location with
  | nil =>
    rw [at?_nil, Option.some.injEq] at h
    rwa [h]
  | cons name more => exact isFolder_of_at?_cons h

/-- What stands in a proper tree is proper, and the way to it is made of names. -/
theorem Proper.at? {tree : FileTree} (proper : tree.Proper) {location : List Name}
    {found : FileTree} (h : tree.at? location = some found) :
    found.Proper ∧ ∀ name ∈ location, Path.IsName name := by
  induction proper generalizing location with
  | file contents runnable =>
    obtain ⟨rfl, rfl⟩ := (at?_eq_some_iff_of_leaf rfl).mp h
    exact ⟨.file contents runnable, by simp⟩
  | device reading writing =>
    obtain ⟨rfl, rfl⟩ := (at?_eq_some_iff_of_leaf rfl).mp h
    exact ⟨.device reading writing, by simp⟩
  | folder distinct names trees ih =>
    cases location with
    | nil =>
      rw [at?_nil, Option.some.injEq] at h
      exact ⟨h ▸ .folder distinct names trees, by simp⟩
    | cons name more =>
      rw [at?_folder, Option.bind_eq_some_iff] at h
      obtain ⟨tree, hlookup, hmore⟩ := h
      have hmem := (lookup_eq_some_iff_mem distinct).mp hlookup
      obtain ⟨hproper, hnames⟩ := ih _ hmem hmore
      exact ⟨hproper, List.forall_mem_cons.mpr ⟨names _ hmem, hnames⟩⟩

/-! ## Trees that hold the same -/

/-- What stands at a place, of a folder only that it is one. -/
inductive Kind where
  | file (contents : ByteArray) (runnable : Bool)
  | folder
  | device (reading : Except OsError ByteArray) (writing : Except OsError Unit)

/-- What the tree is, whatever is below it. -/
def kind : FileTree → Kind
  | .file contents runnable => .file contents runnable
  | .folder _ => .folder
  | .device reading writing => .device reading writing

/-- What is no folder has nothing below it to differ in. -/
theorem eq_of_kind_eq {tree other : FileTree} (h : other.kind = tree.kind)
    (hfolder : tree.isFolder = false) : other = tree := by
  cases tree with
  | folder entries => cases hfolder
  | file contents runnable =>
    -- of the three kinds only one is left
    cases other <;> cases h
    rfl
  | device reading writing =>
    cases other <;> cases h
    rfl

theorem isFolder_of_kind_eq {tree other : FileTree} (h : other.kind = tree.kind) :
    other.isFolder = tree.isFolder := by
  cases tree <;> cases other <;> cases h <;> rfl

theorem isFile_of_kind_eq {tree other : FileTree} (h : other.kind = tree.kind) :
    other.isFile = tree.isFile := by
  cases tree <;> cases other <;> cases h <;> rfl

theorem read_of_kind_eq {tree other : FileTree} (h : other.kind = tree.kind) :
    other.read = tree.read := by
  cases tree <;> cases other <;> cases h <;> rfl

theorem isFolder_eq_true_iff {tree : FileTree} :
    tree.isFolder = true ↔ ∃ entries, tree = .folder entries := by
  cases tree <;> simp [isFolder]

/-- A file is no folder. -/
theorem isFolder_of_isFile {tree : FileTree} (h : tree.isFile) : tree.isFolder = false := by
  cases tree with
  | file contents runnable => rfl
  | folder entries => cases h
  | device reading writing => cases h

/-- The same files and folders stand at the same places. -/
def Alike (tree other : FileTree) : Prop :=
  ∀ location, (tree.at? location).map kind = (other.at? location).map kind

theorem Alike.at? {tree other found : FileTree} (h : tree.Alike other) {location : List Name}
    (hfound : tree.at? location = some found) :
    ∃ found', other.at? location = some found' ∧ found.Alike found' := by
  have hkind := h location
  rw [hfound, Option.map_some, eq_comm, Option.map_eq_some_iff] at hkind
  obtain ⟨found', hfound', -⟩ := hkind
  refine ⟨found', hfound', fun more => ?_⟩
  have hmore := h (location ++ more)
  rwa [at?_append, at?_append, hfound, hfound', Option.bind_some, Option.bind_some] at hmore

theorem Alike.symm {tree other : FileTree} (h : tree.Alike other) : other.Alike tree :=
  fun location => (h location).symm

theorem Alike.kind_eq {tree other : FileTree} (h : tree.Alike other) : tree.kind = other.kind := by
  have hroot := h []
  rw [at?_nil, at?_nil] at hroot
  exact Option.some.inj hroot

theorem Alike.folder_right {entries : List (Name × FileTree)} {other : FileTree}
    (h : (folder entries).Alike other) : ∃ others, other = .folder others :=
  isFolder_eq_true_iff.mp (isFolder_of_kind_eq h.kind_eq.symm)

theorem Alike.eq_of_isFile {tree other : FileTree} (h : tree.Alike other)
    (hfile : tree.isFile) : other = tree :=
  eq_of_kind_eq h.kind_eq.symm (isFolder_of_isFile hfile)

theorem Alike.at?_eq_of_isFile {tree other found : FileTree} (h : tree.Alike other)
    {location : List Name} (hfound : tree.at? location = some found) (hfile : found.isFile) :
    other.at? location = some found := by
  obtain ⟨found', hfound', halike⟩ := h.at? hfound
  rw [hfound', halike.eq_of_isFile hfile]

/-! ## Trees in another order -/

/-- The same tree, its folders enumerated in another order: the entries of one folder after
    the other, wherever it stands, are rearranged. -/
inductive Reordered : FileTree → FileTree → Prop
  | refl (tree : FileTree) : Reordered tree tree
  | entries {entries others : List (Name × FileTree)} (h : entries.Perm others) :
      Reordered (.folder entries) (.folder others)
  | inside {front back : List (Name × FileTree)} {name : Name} {tree other : FileTree}
      (h : Reordered tree other) :
      Reordered (.folder (front ++ (name, tree) :: back)) (.folder (front ++ (name, other) :: back))
  | trans {tree mid other : FileTree} (first : Reordered tree mid) (second : Reordered mid other) :
      Reordered tree other

theorem Reordered.proper {tree other : FileTree} (h : tree.Reordered other)
    (proper : tree.Proper) : other.Proper := by
  induction h with
  | refl tree => exact proper
  | entries h =>
    cases proper with
    | folder distinct names trees =>
      exact .folder ((h.map _).nodup_iff.mp distinct)
        (fun entry hmem => names entry (h.mem_iff.mpr hmem))
        (fun entry hmem => trees entry (h.mem_iff.mpr hmem))
  | @inside front back name tree other h ih =>
    cases proper with
    | folder distinct names trees =>
      have hname : Path.IsName name := names (name, tree) (by simp)
      have htree : other.Proper := ih (trees (name, tree) (by simp))
      refine .folder (by simpa using distinct) ?_ ?_
      · simp only [List.forall_mem_append, List.forall_mem_cons] at names ⊢
        exact ⟨names.1, hname, names.2.2⟩
      · simp only [List.forall_mem_append, List.forall_mem_cons] at trees ⊢
        exact ⟨trees.1, htree, trees.2.2⟩
  | trans first second ihf ihs => exact ihs (ihf proper)

/-- In a proper tree a place does not depend on the order of the entries on the way. -/
theorem Reordered.alike {tree other : FileTree} (h : tree.Reordered other)
    (proper : tree.Proper) : tree.Alike other := by
  induction h with
  | refl tree => exact fun location => rfl
  | @entries entries others h =>
    cases proper with
    | folder distinct names trees =>
      intro location
      cases location with
      | nil => rw [at?_nil, at?_nil]; rfl
      | cons name more =>
        have hlookup : entries.lookup name = others.lookup name := by
          apply Option.ext
          intro found
          rw [lookup_eq_some_iff_mem distinct,
            lookup_eq_some_iff_mem ((h.map _).nodup_iff.mp distinct), h.mem_iff]
        rw [at?_folder, at?_folder, hlookup]
  | @inside front back name tree other h ih =>
    cases proper with
    | folder distinct names trees =>
      have halike : tree.Alike other := ih (trees (name, tree) (by simp))
      intro location
      cases location with
      | nil => rw [at?_nil, at?_nil]; rfl
      | cons key more =>
        rw [at?_folder, at?_folder, List.lookup_append, List.lookup_append]
        -- only where the way goes through the changed entry do the trees differ
        cases front.lookup key with
        | some found => rfl
        | none =>
          by_cases hkey : key = name
          · subst hkey
            simpa using halike more
          · have hbeq : (key == name) = false := by simpa using hkey
            simp [List.lookup_cons, hbeq]
  | trans first second ihf ihs =>
    exact fun location => (ihf proper location).trans (ihs (first.proper proper) location)

end FileTree

/-! ## Disks -/

namespace Disk

/-- The tree below the root is proper. -/
def Proper (disk : Disk) : Prop := disk.root.Proper

/-- The same files and folders stand at the same places, and the working directory is the
    same. -/
structure Alike (disk other : Disk) : Prop where
  root : disk.root.Alike other.root
  current : disk.current = other.current

/-- The disks hold the same, but the folders may be enumerated in another order. -/
structure Reordered (disk other : Disk) : Prop where
  root : disk.root.Reordered other.root
  current : disk.current = other.current

/-- On a proper disk a place does not depend on the order of the entries on the way. -/
theorem Reordered.alike {disk other : Disk} (h : disk.Reordered other) (proper : disk.Proper) :
    disk.Alike other :=
  ⟨h.root.alike proper, h.current⟩

/-- What stands further down stands below what stands here. -/
theorem at?_append (disk : Disk) (location more : List Name) :
    disk.at? (location ++ more) = (disk.at? location).bind (·.at? more) :=
  FileTree.at?_append disk.root location more

/-- No step leads on from what is no folder. -/
theorem step_of_leaf {disk : Disk} {location : List Name} {tree : FileTree}
    (hat : disk.at? location = some tree) (hleaf : tree.isFolder = false) (piece : List Char) :
    disk.step location piece = .error .notDirectory := by
  rw [step, hat]
  cases tree with
  | folder entries => cases hleaf
  | file contents runnable => rfl
  | device reading writing => rfl

theorem Alike.step {disk other : Disk} (h : disk.Alike other) (location : List Name)
    (piece : List Char) : disk.step location piece = other.step location piece := by
  have hhere := h.root location
  rw [Disk.step, Disk.step, Disk.at?, Disk.at?]
  cases hdisk : disk.root.at? location with
  | none =>
    cases hother : other.root.at? location with
    | none => rfl
    | some found => simp [hdisk, hother] at hhere
  | some found =>
    obtain ⟨found', hother, halike⟩ := FileTree.Alike.at? h.root hdisk
    rw [hother]
    cases hfolder : found.isFolder with
    | false => rw [FileTree.eq_of_kind_eq halike.kind_eq.symm hfolder]
    | true =>
      obtain ⟨entries, rfl⟩ := FileTree.isFolder_eq_true_iff.mp hfolder
      obtain ⟨others, rfl⟩ := halike.folder_right
      -- the step looks at no more than whether there is an entry of this name
      have hentry : (entries.lookup piece).isSome = (others.lookup piece).isSome := by
        have hsome := congrArg Option.isSome (halike [piece])
        simpa [FileTree.at?_folder, FileTree.at?_nil] using hsome
      simp only [hentry]

theorem Alike.locate {disk other : Disk} (h : disk.Alike other) (path : Path) :
    disk.locate path = other.locate path := by
  have hstep : disk.step = other.step := funext fun location => funext (h.step location)
  rw [Disk.locate, Disk.locate, walk, walk, start, start, hstep, h.current]

theorem find_eq_ok_iff {disk : Disk} {path : Path} {found : FileTree} :
    disk.find path = .ok found ↔
      ∃ location, disk.locate path = .ok location ∧ disk.at? location = some found := by
  rw [Disk.find]
  cases disk.locate path with
  | error error => simp [Except.bind]
  | ok location => cases hdisk : disk.at? location <;> simp [Except.bind, hdisk]

/-- What a path leads to on a proper disk is proper. -/
theorem Proper.find {disk : Disk} (proper : disk.Proper) {path : Path} {found : FileTree}
    (h : disk.find path = .ok found) : found.Proper := by
  obtain ⟨location, -, hfound⟩ := find_eq_ok_iff.mp h
  exact (FileTree.Proper.at? proper hfound).1

theorem Alike.find {disk other : Disk} (h : disk.Alike other) {path : Path} {found : FileTree}
    (hfound : disk.find path = .ok found) :
    ∃ found', other.find path = .ok found' ∧ found.Alike found' := by
  obtain ⟨location, hlocate, hat⟩ := find_eq_ok_iff.mp hfound
  obtain ⟨found', hat', halike⟩ := FileTree.Alike.at? h.root hat
  exact ⟨found', find_eq_ok_iff.mpr ⟨location, h.locate path ▸ hlocate, hat'⟩, halike⟩

theorem Alike.symm {disk other : Disk} (h : disk.Alike other) : other.Alike disk :=
  ⟨FileTree.Alike.symm h.root, h.current.symm⟩

end Disk

end SmaliSieve
