/-
  SmaliSieve.Tree.Basic

  Files and folders as a value. The entries of a folder stand in the order in which they
  are enumerated. A `Disk` is all that stands below the root of a file system, together
  with the way from the root to the working directory. There are no links.
-/

import SmaliSieve.Fault.Os

namespace SmaliSieve

/-- The name of an entry of a folder. Names are text: for a name whose bytes are not valid
    UTF-8 there is no counterpart, and neither is there for what is done only with such a
    name, which marks no root and cannot stand in a report. -/
abbrev Name := List Char

/-- What stands at a place of a file system. -/
inductive FileTree where
  /-- A file. Only a runnable one can be started as a program. -/
  | file (contents : ByteArray) (runnable : Bool)
  /-- A folder with all that is below it. -/
  | folder (entries : List (Name × FileTree))
  /-- Whatever is neither a plain file nor a folder, such as a device, a pipe or a standard
      stream: what comes of reading from it and of writing to it. Where the bytes go that
      are written is not followed. -/
  | device (reading : Except OsError ByteArray) (writing : Except OsError Unit)
  deriving Inhabited

/-- A file system: the entries of its root, and the names that lead from the root to the
    working directory. -/
structure Disk where
  entries : List (Name × FileTree)
  current : List Name
  deriving Inhabited

namespace FileTree

/-- What stands at `location`, a list of names from here downwards. -/
def at? : FileTree → List Name → Option FileTree
  | tree, [] => some tree
  | .folder entries, name :: more => (entries.lookup name).bind (at? · more)
  | _, _ :: _ => none

/-- It is a file. -/
def isFile : FileTree → Bool
  | .file .. => true
  | _ => false

/-- It is a folder. -/
def isFolder : FileTree → Bool
  | .folder _ => true
  | _ => false

/-- The device that takes everything in and has nothing to be read. -/
def null : FileTree := .device (.ok .empty) (.ok ())

/-- The tree at the end of a way of folders with nothing else in them. -/
def along : List Name → FileTree → FileTree
  | [], tree => tree
  | name :: way, tree => .folder [(name, along way tree)]

/-- The entries of a folder; nothing else has any. -/
def entries : FileTree → List (Name × FileTree)
  | .folder entries => entries
  | _ => []

/-- The entries with that of `name` changed by `change`: it may come, go or be replaced.
    A new entry stands at the end. -/
def alterEntry (name : Name) (change : Option FileTree → Option FileTree) :
    List (Name × FileTree) → List (Name × FileTree)
  | [] => (change none).toList.map (name, ·)
  | entry :: rest =>
    if entry.1 = name then (change (some entry.2)).toList.map (name, ·) ++ rest
    else entry :: alterEntry name change rest

/-- The tree with what stands at `location` changed by `change`. Nothing happens below what
    is no folder or where a folder on the way is missing. -/
def alter (change : Option FileTree → Option FileTree) :
    List Name → Option FileTree → Option FileTree
  | [], tree => change tree
  | name :: more, some (.folder entries) =>
    some (.folder (alterEntry name (alter change more) entries))
  | _ :: _, tree => tree

end FileTree

namespace Disk

/-- The root as a folder. -/
def root (disk : Disk) : FileTree := .folder disk.entries

/-- What stands at `location`, a list of names from the root downwards. -/
def at? (disk : Disk) (location : List Name) : Option FileTree := disk.root.at? location

/-- The entries of the working directory; there are none if it is gone. -/
def here (disk : Disk) : List (Name × FileTree) :=
  ((disk.at? disk.current).map FileTree.entries).getD []

/-- The names that lead on from `location` to the working directory, if it is below. -/
def wayOn (disk : Disk) (location : List Name) : List Name :=
  if location.isPrefixOf disk.current then disk.current.drop location.length else []

/-- The disk with what stands at `location` changed by `change`. The root itself stays a
    folder, and the way to the working directory stays as it is written. -/
def alter (disk : Disk) (location : List Name)
    (change : Option FileTree → Option FileTree) : Disk :=
  match FileTree.alter change location (some disk.root) with
  | some (.folder entries) => { disk with entries }
  | _ => disk

/-- A disk with `entries` in its working directory, a null device, and nothing else. -/
def working (current : List Name) (entries : List (Name × FileTree)) : Disk :=
  let devices := ("dev".toList, .folder [("null".toList, .null)])
  ⟨(FileTree.along current (.folder entries)).entries ++ [devices], current⟩

theorem at?_nil (disk : Disk) : disk.at? [] = some disk.root := by
  rw [at?, FileTree.at?]

@[simp] theorem current_alter (disk : Disk) (location : List Name)
    (change : Option FileTree → Option FileTree) :
    (disk.alter location change).current = disk.current := by
  rw [alter]
  split <;> rfl

end Disk

theorem FileTree.lookup_alterEntry (name other : Name)
    (change : Option FileTree → Option FileTree) (entries : List (Name × FileTree))
    (h : other ≠ name) :
    (alterEntry name change entries).lookup other = entries.lookup other := by
  have hbeq : (other == name) = false := by simpa using h
  induction entries with
  | nil =>
    cases hc : change none <;> simp [alterEntry, hc, List.lookup_cons, hbeq]
  | cons entry rest ih =>
    obtain ⟨key, tree⟩ := entry
    by_cases hkey : key = name
    · subst hkey
      cases hc : change (some tree) <;> simp [alterEntry, hc, List.lookup_cons, hbeq]
    · simp only [alterEntry, hkey, if_false, List.lookup_cons, ih]

end SmaliSieve
