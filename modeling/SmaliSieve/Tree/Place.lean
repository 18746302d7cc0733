/-
  SmaliSieve.Tree.Place

  From paths to places on a disk. An absolute path is walked from the root, any other one
  from the working directory, piece by piece, so every piece but the last has to lead into
  a folder, also in `a/../b`. The root is its own parent. From a working directory that is
  gone no way leads on.
-/

import SmaliSieve.Fault.Os
import SmaliSieve.Path.Basic
import SmaliSieve.Tree.Basic

namespace SmaliSieve

/-- The most bytes a name may have. -/
def longestName : Nat := 255

/-- The number of bytes from which on a path is too long. -/
def pathLimit : Nat := 4096

/-- The reason why a path cannot be looked up on any disk, if there is one. -/
def Path.defect? (path : Path) : Option OsError :=
  if path.chars.contains '\x00' then some .nulInPath
  else if path.chars.isEmpty then some .notFound
  else if pathLimit ≤ Text.byteLength path.chars then some .nameTooLong
  else none

namespace Disk

/-- The location that a path starts from. -/
def start (disk : Disk) (path : Path) : List Name :=
  if path.isAbsolute then [] else disk.current

/-- One step from the folder at `location`. -/
def step (disk : Disk) (location : List Name) (piece : List Char) :
    Except OsError (List Name) :=
  match disk.at? location with
  | some (.folder entries) =>
    -- also a `.` or an empty piece needs a folder to stand in
    if Path.isIdle piece then .ok location
    else if piece = ['.', '.'] then .ok location.dropLast
    else if longestName < Text.byteLength piece then .error .nameTooLong
    else if (entries.lookup piece).isSome then .ok (location ++ [piece])
    else .error .notFound
  | some _ => .error .notDirectory
  | none => .error .notFound

/-- Where the pieces lead to, one after the other. -/
def walk (disk : Disk) (location : List Name) (pieces : List (List Char)) :
    Except OsError (List Name) :=
  pieces.foldlM disk.step location

/-- The location that `path` leads to. -/
def locate (disk : Disk) (path : Path) : Except OsError (List Name) :=
  match path.defect? with
  | some error => .error error
  | none => disk.walk (disk.start path) path.pieces

/-- What stands at `path`. -/
def find (disk : Disk) (path : Path) : Except OsError FileTree :=
  (disk.locate path).bind fun location =>
    match disk.at? location with
    | some tree => .ok tree
    | none => .error .notFound

/-- The last step of a path, for operations on the folder that holds the entry. -/
inductive LastStep where
  /-- No step at all: the path is the root. -/
  | root
  /-- A `.`, so the path leads to the folder itself. -/
  | here
  /-- A `..`. -/
  | parent
  /-- A name. `slash` says whether a separator stands behind it. -/
  | name (chars : Name) (slash : Bool)
  deriving DecidableEq, Repr

/-- A place for an entry: the folder that holds it or is to hold it, and the last step. -/
structure Place where
  folder : List Name
  last : LastStep
  deriving DecidableEq, Repr

/-- The place that `path` leads to. The folder is there, the entry need not be. -/
def place (disk : Disk) (path : Path) : Except OsError Place :=
  match path.defect? with
  | some error => .error error
  | none =>
    -- separators at the end are no steps, but tell that a folder is meant
    let reversed := path.pieces.reverse
    match reversed.dropWhile List.isEmpty with
    | [] => .ok ⟨[], .root⟩
    | last :: front => do
      let folder ← disk.walk (disk.start path) front.reverse
      match disk.at? folder with
      | some (.folder _) =>
        if last = ['.'] then .ok ⟨folder, .here⟩
        else if last = ['.', '.'] then .ok ⟨folder, .parent⟩
        else
          let slash := (reversed.takeWhile List.isEmpty).length ≠ 0
          .ok ⟨folder, .name last slash⟩
      | some _ => .error .notDirectory
      | none => .error .notFound

end Disk

end SmaliSieve
