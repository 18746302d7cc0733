/-
  SmaliSieve.App.Operation

  What can be done with an application: decompile its archive, read the tree, filter the
  classes, find their files, and remove archive and tree. Removing never fails; where it
  cannot be done, that is told.
-/

import SmaliSieve.App.Basic
import SmaliSieve.Disassembly.Collect
import SmaliSieve.Disassembly.Locate
import SmaliSieve.Manifest.Reading
import SmaliSieve.Namespace.Filter
import SmaliSieve.Smali.Aggregate
import SmaliSieve.Tree.Change

namespace SmaliSieve.App

open Disassembly (Layout)
open Namespace (Filter FilterReport)
open Tool (Attempt Launcher)

/-- Decompiles the archive, if the application comes from one. -/
def decompile (launch : Launcher) (binary : String) (disk : Disk) (app : App) :
    Log.Logged (Attempt App) :=
  match app.archive with
  | none => pure ⟨.ok app, disk, ""⟩
  | some archive => do
    let attempt ← Tool.decompile launch binary archive disk
    let result := attempt.result.map fun folder => { app with folder := folder }
    return ⟨result, attempt.disk, attempt.printed⟩

/-- Reads the decompiled tree. -/
def load (layout : Layout) (disk : Disk) (app : App) : Log.Logged App := do
  let files ← Disassembly.collect layout disk app.folder
  Log.Logged.tell [.files files.length]
  let classes ← Smali.aggregateLogged files
  let app ← app.withClasses classes
  return { app with loaded := true }

/-- Decompiles the archive and reads the tree. -/
def extract (launch : Launcher) (binary : String) (layout : Layout) (disk : Disk)
    (app : App) : Log.Logged (Attempt App) := do
  let attempt ← app.decompile launch binary disk
  match attempt.result with
  | .error fault => return ⟨.error fault, attempt.disk, attempt.printed⟩
  | .ok app =>
    let app ← app.load layout attempt.disk
    return ⟨.ok app, attempt.disk, attempt.printed⟩

/-- The package named by the manifest of the decompiled tree. -/
def package (disk : Disk) (app : App) : Log.Logged (Option String) :=
  Manifest.readPackage disk app.folder

/-- Filters the classes. Without a package nothing changes. -/
def filter (filter : Filter) (package : Option String) (app : App) :
    Log.Logged (App × FilterReport) := do
  let outcome ← filter.applyLogged app.classes package
  if outcome.report.skipped then return (app, outcome.report)
  else
    let app ← app.withClasses outcome.classes
    return (app, outcome.report)

/-- The files of the classes. The outer `none` says that the extension of the layout fits
    no file name. -/
def sourceFiles (layout : Layout) (disk : Disk) (app : App) :
    Log.Logged (Option (List Path)) :=
  Disassembly.locateAll layout disk app.folder (app.classes.map (·.className))

/-- Removes the archive. -/
def deleteArchive (disk : Disk) (app : App) : Log.Logged Disk :=
  match app.archive with
  | none => pure disk
  | some archive =>
    match disk.removeFile archive with
    | .ok disk => ⟨disk, [.deleting archive]⟩
    | .error cause => ⟨disk, [.deleting archive, .deleteFailed archive cause]⟩

/-- Removes the decompiled tree. -/
def deleteTree (disk : Disk) (app : App) : Log.Logged Disk :=
  let removal := disk.removeTree app.folder
  let failed := removal.failure.toList.map (.deleteFailed app.folder ·)
  ⟨removal.disk, .deleting app.folder :: failed⟩

end SmaliSieve.App
