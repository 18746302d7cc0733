/-
  SmaliSieve.Tree.Difference

  The steps that turn what one disk holds into what another holds. What goes is removed
  from the leaves upwards, what comes is made from the top downwards, and all removals come
  first, so that a file can take the place of a folder and the other way round.
-/

import SmaliSieve.Tree.Listing
import SmaliSieve.Tree.Reading

namespace SmaliSieve

/-- A step that changes what stands at one path. -/
inductive Edit where
  | removeFile (path : Path)
  /-- The folder is empty by then. -/
  | removeFolder (path : Path)
  | makeFolder (path : Path)
  | writeFile (path : Path) (contents : ByteArray) (runnable : Bool)

namespace Disk

/-- All entries of the disk with their absolute paths, a folder before what is in it. -/
def nodes (disk : Disk) : List (Path × FileTree) := FileTree.entryNodes ⟨['/']⟩ disk.entries

/-- Something stands at `path` that is neither a file nor a folder. -/
def isDevice (disk : Disk) (path : Path) : Bool :=
  (disk.find path).toOption.isSome && !disk.isFile path && !disk.isFolder path

/-- The step that removes an entry that the disk does not keep as what it is. -/
def removal? (after : Disk) : Path × FileTree → Option Edit
  | (path, .file ..) => if after.isFile path then none else some (.removeFile path)
  | (path, .folder _) => if after.isFolder path then none else some (.removeFolder path)
  | (path, .device ..) => if after.isDevice path then none else some (.removeFile path)

/-- The step that brings about an entry that the disk does not have as it is. No device is
    ever made. -/
def arrival? (before : Disk) : Path × FileTree → Option Edit
  | (path, .folder _) => if before.isFolder path then none else some (.makeFolder path)
  | (path, .file contents runnable) =>
    match before.find path with
    | .ok (.file old wasRunnable) =>
      if old.data == contents.data && wasRunnable == runnable then none
      else some (.writeFile path contents runnable)
    | _ => some (.writeFile path contents runnable)
  | (_, .device ..) => none

/-- The steps from one disk to another. -/
def edits (before after : Disk) : List Edit :=
  before.nodes.reverse.filterMap after.removal? ++ after.nodes.filterMap before.arrival?

end Disk

end SmaliSieve
