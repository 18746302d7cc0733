/-
  SmaliSieve.Proofs.App.History

  Applications in use: operations in any order, on a disk that may be another one at every
  step, with a decompiler that may do anything.

  Beside the application stands its past: the files that were read last and the filters
  asked for since. An application is at all times what its past makes of a new one
  (`after_app`): it holds the classes of those files that every one of those filters keeps,
  and nothing else about it has changed. `Operation.after_appOf` is one step of this, and
  the properties of the lists at any time (`after_lists`) follow.
-/

import SmaliSieve.Proofs.App.Effect
import SmaliSieve.Proofs.Smali.Grouping

namespace SmaliSieve.App

open Disassembly (Layout)
open Namespace (Filter)
open Smali
open Tool (Attempt Launcher)

/-! ## Operations -/

/-- What can be asked of an application. -/
inductive Operation where
  | decompile (launch : Launcher) (binary : String)
  | load (layout : Layout)
  | extract (launch : Launcher) (binary : String) (layout : Layout)
  | filter (rules : Filter) (name : Option String)
  | package
  | sourceFiles (layout : Layout)
  | deleteArchive
  | deleteTree

/-- The operation on a disk: the application it leaves, or a fault. What the last four find
    out or remove does not touch the application. -/
def Operation.perform (disk : Disk) (app : App) : Operation → Log.Logged (Attempt App)
  | .decompile launch binary => app.decompile launch binary disk
  | .load layout => do
    let app ← app.load layout disk
    return ⟨.ok app, disk, ""⟩
  | .extract launch binary layout => app.extract launch binary layout disk
  | .filter rules name => do
    let (app, _) ← app.filter rules name
    return ⟨.ok app, disk, ""⟩
  | .package => do
    let _ ← app.package disk
    return ⟨.ok app, disk, ""⟩
  | .sourceFiles layout => do
    let _ ← app.sourceFiles layout disk
    return ⟨.ok app, disk, ""⟩
  | .deleteArchive => do
    let disk ← app.deleteArchive disk
    return ⟨.ok app, disk, ""⟩
  | .deleteTree => do
    let disk ← app.deleteTree disk
    return ⟨.ok app, disk, ""⟩

/-- The application after the operation. After a fault it is what it was. -/
def Operation.after (disk : Disk) (app : App) (operation : Operation) : App :=
  match (operation.perform disk app).value.result with
  | .ok after => after
  | .error _ => app

/-! ## The past -/

/-- What has been done to an application, as far as its lists show it. -/
structure Past where
  /-- The files that were read last, if any were. -/
  lastRead : Option (List SourceFile)
  /-- The filters since then, each with the package it was given. -/
  filters : List (Filter × Option String)

namespace Past

/-- Nothing has been done. -/
def start : Past := ⟨none, []⟩

/-- The files were read just now. -/
def reading (files : List SourceFile) : Past := ⟨some files, []⟩

/-- One more filter. -/
def filtering (past : Past) (filter : Filter) (package : Option String) : Past :=
  { past with filters := past.filters ++ [(filter, package)] }

/-- A class of this name has come through every filter. -/
def keeps (past : Past) (name : String) : Bool :=
  past.filters.all fun asked => asked.1.keeps asked.2 name

/-- The files that were read last, none if there was no reading. -/
def files (past : Past) : List SourceFile := past.lastRead.getD []

/-- The classes of the files that were read last which have come through every filter. -/
def classes (past : Past) : List ClassRecord :=
  (aggregate past.files).filter fun record => past.keeps record.className

theorem classes_start : start.classes = [] := by
  show (aggregate []).filter _ = []
  rw [aggregate_nil, List.filter_nil]

theorem classes_reading (files : List SourceFile) : (reading files).classes = aggregate files :=
  List.filter_eq_self.mpr fun _ _ => rfl

theorem keeps_filtering (past : Past) (filter : Filter) (package : Option String)
    (name : String) :
    (past.filtering filter package).keeps name =
      (past.keeps name && filter.keeps package name) := by
  simp [keeps, filtering]

theorem classes_filtering (past : Past) (filter : Filter) (package : Option String) :
    (past.filtering filter package).classes =
      past.classes.filter fun record => filter.keeps package record.className := by
  rw [classes, classes, List.filter_filter]
  apply List.filter_congr
  intro record _
  rw [keeps_filtering, Bool.and_comm]

/-- What the past makes of a new application. -/
def appOf (past : Past) (origin : App) : App :=
  { origin.holding past.classes with loaded := past.lastRead.isSome }

end Past

/-- The past after an operation on `app`. It changes with what is read, also at the end of a
    successful extraction, and with every filter. -/
def Operation.past (disk : Disk) (app : App) (past : Past) : Operation → Past
  | .load layout => .reading (app.filesOf layout disk)
  | .extract launch binary layout =>
    let attempt := (app.decompile launch binary disk).value
    match attempt.result with
    | .ok app => .reading (app.filesOf layout attempt.disk)
    | .error _ => past
  | .filter rules name => past.filtering rules name
  | _ => past

/-! ## One step -/

theorem load_appOf (layout : Layout) (disk : Disk) (past : Past) (origin : App) :
    ((past.appOf origin).load layout disk).value =
      (Past.reading ((past.appOf origin).filesOf layout disk)).appOf origin := by
  rw [load_value, ← Past.classes_reading]
  rfl

/-- An application that is what its past makes of a new one is so after every operation. -/
theorem Operation.after_appOf {origin : App} (placed : origin.Placed) (past : Past)
    (disk : Disk) (operation : Operation) :
    operation.after disk (past.appOf origin) =
      (operation.past disk (past.appOf origin) past).appOf origin := by
  have hplaced : (past.appOf origin).Placed := placed
  -- reading and filtering change the past, all other operations leave the application alone
  cases operation with
  | decompile launch binary =>
    show (match ((past.appOf origin).decompile launch binary disk).value.result with
      | .ok after => after
      | .error _ => past.appOf origin) = past.appOf origin
    cases hresult : ((past.appOf origin).decompile launch binary disk).value.result with
    | error fault => rfl
    | ok after => exact decompile_ok hplaced hresult
  | load layout => exact load_appOf layout disk past origin
  | extract launch binary layout =>
    rw [Operation.after, perform, extract_result hplaced, Operation.past]
    cases hresult : ((past.appOf origin).decompile launch binary disk).value.result with
    | error fault => rfl
    | ok after =>
      obtain rfl := decompile_ok hplaced hresult
      exact load_appOf layout _ past origin
  | filter rules name =>
    have hclasses := past.classes_filtering rules name
    show ((past.appOf origin).filter rules name).value.1 =
      (past.filtering rules name).appOf origin
    rw [filter_value rfl]
    show (past.appOf origin).holding (past.classes.filter _) = _
    rw [← hclasses]
    rfl
  | package | sourceFiles layout | deleteArchive | deleteTree => rfl

/-! ## All steps -/

/-- How an application comes about. -/
inductive Origin where
  /-- From a tree that is decompiled already. -/
  | folder (path : Path) (parallel : Bool)
  /-- From an archive. -/
  | archive (path : Path) (parallel : Bool)

/-- The application before anything is done with it. -/
def Origin.app : Origin → App
  | .folder path parallel => .ofFolder path parallel
  | .archive path parallel => .ofArchive path parallel

theorem Origin.placed (origin : Origin) : origin.app.Placed := by
  intro archive h
  cases origin with
  | folder path parallel => cases h
  | archive path parallel =>
    cases h
    rfl

/-- An operation and the disk that it meets. -/
structure Step where
  disk : Disk
  operation : Operation

/-- An application and its past. -/
structure History where
  app : App
  past : Past

/-- One more step. -/
def History.step (history : History) (step : Step) : History where
  app := step.operation.after step.disk history.app
  past := step.operation.past step.disk history.app history.past

/-- The application after some steps, in this order, and its past by then. -/
def Origin.after (origin : Origin) (steps : List Step) : History :=
  steps.foldl History.step ⟨origin.app, .start⟩

theorem foldl_step_app {origin : App} (placed : origin.Placed) (steps : List Step)
    {history : History} (h : history.app = history.past.appOf origin) :
    (steps.foldl History.step history).app =
      (steps.foldl History.step history).past.appOf origin := by
  induction steps generalizing history with
  | nil => exact h
  | cons step steps ih =>
    apply ih
    show step.operation.after step.disk history.app = _
    rw [h, Operation.after_appOf placed, ← h]
    rfl

/-- Whatever is done, an application is what its past makes of a new one. -/
theorem after_app (origin : Origin) (steps : List Step) :
    (origin.after steps).app = (origin.after steps).past.appOf origin.app := by
  apply foldl_step_app origin.placed
  show origin.app = Past.start.appOf origin.app
  rw [Past.appOf, Past.classes_start]
  cases origin <;> rfl

end SmaliSieve.App
