/-
  SmaliSieve.Tree.Listing

  All that is below a folder, each entry with its path. A folder comes before what is in
  it, and entries stand in the order of their folder.
-/

import SmaliSieve.Path.Basic
import SmaliSieve.Tree.Basic

namespace SmaliSieve.FileTree

mutual

/-- The tree itself, which stands at `path`, and all below it. -/
def nodes (path : Path) : FileTree → List (Path × FileTree)
  | .folder entries => (path, .folder entries) :: entryNodes path entries
  | tree => [(path, tree)]

/-- All at and below the entries of the folder at `path`. -/
def entryNodes (path : Path) : List (Name × FileTree) → List (Path × FileTree)
  | [] => []
  | (name, tree) :: rest => nodes (path.join name) tree ++ entryNodes path rest

end

/-- The files at or below `path`, where the tree stands. -/
def filesBelow (path : Path) (tree : FileTree) : List (Path × FileTree) :=
  (tree.nodes path).filter (·.2.isFile)

end SmaliSieve.FileTree

namespace SmaliSieve.Disk

/-- The path of each entry at and below the working directory, a folder with a separator at
    the end. -/
def listing (disk : Disk) : List String :=
  (FileTree.entryNodes ⟨[]⟩ disk.here).map fun entry =>
    if entry.2.isFolder then entry.1.text ++ "/" else entry.1.text

end SmaliSieve.Disk
