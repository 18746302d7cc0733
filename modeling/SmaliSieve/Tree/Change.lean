/-
  SmaliSieve.Tree.Change

  Writing and removing. Each operation gives the disk as it is afterwards, or says why
  it failed; one that fails has changed nothing, but for `removeTree`, which may have
  emptied the folder before it fails.
-/

import SmaliSieve.Path.Name
import SmaliSieve.Tree.Reading

namespace SmaliSieve.Disk

/-- The disk with the file at `path` made or changed: `contents` gets the bytes that are
    there, if the file is. A file that is there stays as runnable as it is. What a device
    takes in changes nothing on the disk. -/
def changeFile (disk : Disk) (path : Path) (contents : Option ByteArray → ByteArray) :
    Except OsError Disk := do
  let place ← disk.place path
  match place.last with
  | .name name false =>
    if longestName < Text.byteLength name then .error .nameTooLong
    else
      let location := place.folder ++ [name]
      match disk.at? location with
      | some (.folder _) => .error .isDirectory
      | some (.file old runnable) =>
        .ok (disk.alter location fun _ => some (.file (contents (some old)) runnable))
      | some (.device _ writing) => writing.map fun _ => disk
      | none => .ok (disk.alter location fun _ => some (.file (contents none) false))
  | _ => .error .isDirectory

/-- The disk with `contents` in the file at `path`. -/
def write (disk : Disk) (path : Path) (contents : ByteArray) : Except OsError Disk :=
  disk.changeFile path fun _ => contents

/-- The disk with `contents` added to the end of the file at `path`. -/
def append (disk : Disk) (path : Path) (contents : ByteArray) : Except OsError Disk :=
  disk.changeFile path fun old => old.getD .empty ++ contents

/-- The disk without the file or device at `path`. -/
def removeFile (disk : Disk) (path : Path) : Except OsError Disk := do
  let place ← disk.place path
  match place.last with
  | .name name slash =>
    if longestName < Text.byteLength name then .error .nameTooLong
    else
      let location := place.folder ++ [name]
      match disk.at? location with
      | some (.folder _) => .error .isDirectory
      | some _ => if slash then .error .notDirectory else .ok (disk.alter location fun _ => none)
      | none => .error .notFound
  | _ => .error .isDirectory

/-- The outcome of `removeTree`: the disk afterwards, and the failure if there was one. -/
structure Removal where
  disk : Disk
  failure : Option OsError

/-- Removes the folder at `path` with all that is below it. It is emptied first. If the
    path then leads nowhere any more, because it went through what was removed, that is
    all; a path that ends with `.` leads to a folder that cannot be taken away, and neither
    can the root be. -/
def removeTree (disk : Disk) (path : Path) : Removal :=
  match disk.locate path with
  | .error error => ⟨disk, some error⟩
  | .ok location =>
    match disk.at? location with
    | some (.folder _) =>
      let emptied := disk.alter location fun _ => some (.folder [])
      -- a working directory that was removed can still be left upwards
      let left := disk.alter location fun _ => some (.along (disk.wayOn location) (.folder []))
      match left.place path with
      | .error .notFound => ⟨emptied, none⟩
      | .error error => ⟨emptied, some error⟩
      | .ok ⟨_, .root⟩ => ⟨emptied, some .busy⟩
      | .ok ⟨_, .here⟩ => ⟨emptied, some .invalidArgument⟩
      | .ok ⟨_, .parent⟩ =>
        ⟨emptied, if (left.locate path).toOption.isSome then some .notEmpty else none⟩
      | .ok ⟨folder, .name name _⟩ => ⟨emptied.alter (folder ++ [name]) fun _ => none, none⟩
    | some _ => ⟨disk, some .notDirectory⟩
    | none => ⟨disk, some .notFound⟩

/-- The disk with a folder at each place on the way to `path`, made where nothing is. -/
def makeFolders (disk : Disk) (path : Path) : Except OsError Disk :=
  match path.defect? with
  | some error => .error error
  | none => (go disk (disk.start path) path.pieces).map (·.1)
where
  /-- The same for the pieces that remain, from a location that is a folder. -/
  go (disk : Disk) (location : List Name) :
      List (List Char) → Except OsError (Disk × List Name)
    | [] => .ok (disk, location)
    | piece :: rest =>
      match disk.step location piece with
      | .ok next =>
        match disk.at? next with
        | some (.folder _) => go disk next rest
        | _ => .error (if rest.all Path.isIdle then .alreadyExists else .notDirectory)
      | .error .notFound =>
        -- nothing can be made in a working directory that is gone
        if (disk.at? location).isNone then .error .notFound
        else
          let next := location ++ [piece]
          go (disk.alter next fun _ => some (.folder [])) next rest
      | .error error => .error error

/-- The disk with a new folder at `path`. -/
def makeFolder (disk : Disk) (path : Path) : Except OsError Disk := do
  let place ← disk.place path
  match place.last with
  | .name name _ =>
    let location := place.folder ++ [name]
    if (disk.at? location).isSome then .error .alreadyExists
    else if longestName < Text.byteLength name then .error .nameTooLong
    else .ok (disk.alter location fun _ => some (.folder []))
  | _ => .error .alreadyExists

/-- The disk with `contents` in the file at `path`, the folders on the way made where they
    are missing. -/
def plant (disk : Disk) (path : Path) (contents : ByteArray) : Except OsError Disk := do
  let folders := (path.splitName?.map (·.1)).getD []
  let disk ← if folders.isEmpty then .ok disk else disk.makeFolders ⟨folders⟩
  disk.write path contents

/-- The disk with the file at `path` runnable or not. -/
def setRunnable (disk : Disk) (path : Path) (runnable : Bool) : Except OsError Disk := do
  let location ← disk.locate path
  return disk.alter location fun
    | some (.file contents _) => some (.file contents runnable)
    | other => other

end SmaliSieve.Disk
