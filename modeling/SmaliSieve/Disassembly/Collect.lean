/-
  SmaliSieve.Disassembly.Collect

  Reading a decompiled tree. Every file below a disassembly root is read, whatever its
  extension; one that is no text is told and left out.
-/

import SmaliSieve.Disassembly.Roots
import SmaliSieve.Path.Name
import SmaliSieve.Smali.Record

namespace SmaliSieve.Disassembly

open Smali

/-- What stands at `path` as a source file, if it can be read and is text. -/
def sourceFile? (path : Path) (tree : FileTree) : Except OsError SourceFile :=
  (tree.read.bind Disk.textOf).map fun text =>
    ⟨String.ofList (path.fileName?.getD []), text, path⟩

/-- The files that are text. -/
def readable (files : List (Path × FileTree)) : List SourceFile :=
  files.filterMap fun file => (sourceFile? file.1 file.2).toOption

/-- What is told about the files that are no text. -/
def unreadable (files : List (Path × FileTree)) : List Log.Event :=
  files.filterMap fun file =>
    match sourceFile? file.1 file.2 with
    | .ok _ => none
    | .error cause => some (.trouble (.filesystem file.1 cause))

/-- The source files of the decompiled tree at `base`. -/
def collect (layout : Layout) (disk : Disk) (base : Path) : Log.Logged (List SourceFile) := do
  let files := filesOf (← roots layout disk base)
  let sources := readable files
  Log.Logged.tell (unreadable files ++ [.collected sources.length])
  return sources

end SmaliSieve.Disassembly
