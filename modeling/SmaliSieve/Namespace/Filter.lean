/-
  SmaliSieve.Namespace.Filter

  Narrowing a class list down to the application's own code, in three passes: keep what
  lies in the application's package, then drop what lies in a system library, then what
  lies in a third-party library. Without a package nothing is filtered, and a pass over
  an empty list of libraries is left out. The report has the count after each pass that
  was made.
-/

import SmaliSieve.Log.Logged
import SmaliSieve.Namespace.PrefixList
import SmaliSieve.Smali.Record

namespace SmaliSieve.Namespace

open Smali

/-- The class counts around the passes. -/
structure FilterReport where
  /-- The package that was kept, if one was known. -/
  package : Option String
  /-- The number of classes before any pass. -/
  start : Nat
  afterPackage : Option Nat
  afterSystem : Option Nat
  afterLibraries : Option Nat
  deriving DecidableEq, Repr

namespace FilterReport

/-- The report of a filter that did nothing to `start` classes. -/
def untouched (start : Nat) : FilterReport := ⟨none, start, none, none, none⟩

/-- Nothing was filtered, because no package was known. -/
def skipped (report : FilterReport) : Bool := report.package.isNone

/-- The number of classes after the last pass. -/
def finalCount (report : FilterReport) : Nat :=
  ((report.afterLibraries <|> report.afterSystem <|> report.afterPackage)).getD report.start

/-- The passes that were made and the number of classes after each. -/
def rows (report : FilterReport) : List (String × Nat) :=
  ("Start", report.start) ::
    (report.afterPackage.toList.map ("Application package", ·)
      ++ report.afterSystem.toList.map ("System libraries", ·)
      ++ report.afterLibraries.toList.map ("Third-party libraries", ·))

end FilterReport

/-- The package as it stands in class names, where dashes are underscores. -/
def normalizePackage (package : String) : String :=
  String.ofList (Text.replaceChar '-' '_' package.toList)

/-- An underscore stands in the place of each dash, and all else stands as it did. -/
theorem getElem?_normalizePackage (package : String) (position : Nat) :
    (normalizePackage package).toList[position]? =
      package.toList[position]?.map fun c => if c = '-' then '_' else c := by
  simp [normalizePackage, Text.replaceChar]

/-- The package to filter by, trimmed and normalised, unless it is absent or blank. -/
def effectivePackage? (package : Option String) : Option String :=
  package.bind fun name =>
    if Text.isVoid name then none else some (normalizePackage (Text.trimmed name))

/-- The classes in the package. -/
def retainPackage (mode : Mode) (package : String) (classes : List ClassRecord) :
    List ClassRecord :=
  classes.filter fun record => mode.covers record.className package

/-- The classes that lie in none of the listed namespaces. -/
def excludeListed (mode : Mode) (list : PrefixList) (classes : List ClassRecord) :
    List ClassRecord :=
  classes.filter fun record => !list.coversAny mode record.className

/-- What a filter drops and how it compares names. -/
structure Filter where
  system : PrefixList
  libraries : PrefixList
  mode : Mode
  deriving DecidableEq, Repr

/-- A pass over `list`, unless it is empty: the classes left and, if the pass was made,
    their number. -/
def Filter.pass (filter : Filter) (list : PrefixList) (classes : List ClassRecord) :
    List ClassRecord × Option Nat :=
  if list.isEmpty then (classes, none)
  else
    let left := excludeListed filter.mode list classes
    (left, some left.length)

/-- The filter that drops nothing by itself. -/
def Filter.idle : Filter := ⟨.empty, .empty, .plain⟩

/-- The classes a filter leaves, and the report on it. -/
structure Outcome where
  classes : List ClassRecord
  report : FilterReport
  deriving DecidableEq, Repr

/-- All passes, for a package that may not be known. -/
def Filter.apply (filter : Filter) (classes : List ClassRecord) (package : Option String) :
    Outcome :=
  match effectivePackage? package with
  | none => ⟨classes, .untouched classes.length⟩
  | some package =>
    let kept := retainPackage filter.mode package classes
    let (ownOrLibrary, afterSystem) := filter.pass filter.system kept
    let (own, afterLibraries) := filter.pass filter.libraries ownOrLibrary
    ⟨own, ⟨some package, classes.length, some kept.length, afterSystem, afterLibraries⟩⟩

/-- What is told about a filter run. -/
def FilterReport.events (report : FilterReport) : List Log.Event :=
  .beforeFilter report.start ::
    match report.package with
    | none => [.filterSkipped]
    | some package =>
      report.afterPackage.toList.map (.afterPackage package ·)
        ++ report.afterSystem.toList.map .afterSystem
        ++ report.afterLibraries.toList.map .afterLibraries

/-- `Filter.apply`, with its report told. -/
def Filter.applyLogged (filter : Filter) (classes : List ClassRecord)
    (package : Option String) : Log.Logged Outcome :=
  let outcome := filter.apply classes package
  ⟨outcome, outcome.report.events⟩

end SmaliSieve.Namespace
