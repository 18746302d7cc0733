/-
  SmaliSieve.Disassembly.Roots

  Disassembly roots: the folders of a decompiled tree whose name starts with a marker,
  such as `smali` and `smali_classes2`. They may lie at any depth below the tree's own
  folder, and a root inside another root belongs to that one.
-/

import SmaliSieve.Log.Logged
import SmaliSieve.Text.Search
import SmaliSieve.Tree.Listing
import SmaliSieve.Tree.Reading

namespace SmaliSieve.Disassembly

/-- How disassembly is laid out in a decompiled tree. -/
structure Layout where
  /-- What the name of a disassembly root starts with. -/
  marker : String
  /-- The extension of disassembly files, without the dot. -/
  extension : String
  deriving DecidableEq, Repr

/-- The usual layout. -/
def Layout.usual : Layout := ⟨"smali", "smali"⟩

/-- A folder of this name is a disassembly root. -/
def Layout.marks (layout : Layout) (name : Name) : Bool :=
  Text.startsWith name layout.marker.toList

mutual

/-- The roots in an entry of the given name, which stands at `path`. -/
def rootsAt (layout : Layout) (name : Name) (path : Path) : FileTree → List (Path × FileTree)
  | .folder entries =>
    if layout.marks name then [(path, .folder entries)] else rootsIn layout path entries
  | _ => []

/-- The roots in the entries of the folder at `path`. -/
def rootsIn (layout : Layout) (path : Path) : List (Name × FileTree) → List (Path × FileTree)
  | [] => []
  | (name, tree) :: rest =>
    rootsAt layout name (path.join name) tree ++ rootsIn layout path rest

end

/-- The roots below the decompiled tree at `base`, or the fault that there is none. -/
def findRoots (layout : Layout) (disk : Disk) (base : Path) :
    Except Fault (List (Path × FileTree)) :=
  match disk.find base with
  | .ok (.folder entries) => .ok (rootsIn layout base entries)
  | _ => .error (.missing .decompiledDirectory base)

/-- The roots below the decompiled tree at `base`. Where there is no tree there are no
    roots, and that is told. -/
def roots (layout : Layout) (disk : Disk) (base : Path) : Log.Logged (List (Path × FileTree)) :=
  match findRoots layout disk base with
  | .ok found => ⟨found, []⟩
  | .error fault => ⟨[], [.trouble fault]⟩

/-- All files at or below the given roots. -/
def filesOf (roots : List (Path × FileTree)) : List (Path × FileTree) :=
  roots.flatMap fun root => root.2.filesBelow root.1

end SmaliSieve.Disassembly
