/-
  SmaliSieve.Tree.Reading

  What can be found out about a disk without changing it.
-/

import SmaliSieve.Tree.Place

namespace SmaliSieve

/-- What comes of reading what stands at a place. -/
def FileTree.read : FileTree → Except OsError ByteArray
  | .file contents _ => .ok contents
  | .folder _ => .error .isDirectory
  | .device reading _ => reading

namespace Disk

/-- A file stands at `path`. -/
def isFile (disk : Disk) (path : Path) : Bool :=
  match disk.find path with
  | .ok tree => tree.isFile
  | .error _ => false

/-- A folder stands at `path`. -/
def isFolder (disk : Disk) (path : Path) : Bool :=
  match disk.find path with
  | .ok tree => tree.isFolder
  | .error _ => false

/-- The bytes that are read at `path`. -/
def readBytes (disk : Disk) (path : Path) : Except OsError ByteArray :=
  (disk.find path).bind FileTree.read

/-- The bytes as text, if they are valid UTF-8. -/
def textOf (contents : ByteArray) : Except OsError String :=
  match String.fromUTF8? contents with
  | some text => .ok text
  | none => .error .notText

/-- The text that is read at `path`. -/
def readText (disk : Disk) (path : Path) : Except OsError String :=
  (disk.readBytes path).bind textOf

end Disk

end SmaliSieve
