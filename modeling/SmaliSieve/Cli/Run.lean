/-
  SmaliSieve.Cli.Run

  A run of the program, from the arguments to the report. The steps come in this order:
  settings, decompiling, reading the tree, filtering, reporting, cleaning up. The archive
  is only removed once it was decompiled, and the tree only once the report was made.
-/

import SmaliSieve.App.Operation
import SmaliSieve.Cli.Arguments
import SmaliSieve.Cli.Completion
import SmaliSieve.Cli.Help
import SmaliSieve.Cli.Session
import SmaliSieve.Namespace.ListFile
import SmaliSieve.Settings.Loading

namespace SmaliSieve.Cli

open Namespace (Filter FilterReport PrefixList)

/-- What a run finds around it. -/
structure Host where
  /-- How tools are run. -/
  launch : Tool.Launcher
  /-- The answer to a question, or why there is none. -/
  ask : String → Except String Bool
  /-- The output is coloured. -/
  color : Bool

/-- The settings with those of the command line in place of those from a file. -/
def Arguments.override (arguments : Arguments) (settings : Settings) : Settings :=
  { settings with
    decompiler := arguments.decompiler.getD settings.decompiler
    libraries := arguments.libraries.getD settings.libraries
    systemLibraries := arguments.systemLibraries.getD settings.systemLibraries
    mode := arguments.mode.getD settings.mode
    parallel := settings.parallel || arguments.has .parallel }

/-- The settings of a run. -/
def settle (arguments : Arguments) : Session Settings := do
  let disk ← Session.disk
  let loaded ← Session.tell <|
    match arguments.config with
    | some path => Settings.load disk path
    | none => Settings.loadFrom disk (.ofString ".")
  return arguments.override (← Session.orFail loaded)

/-- Whether a removal is wanted. Without an answer it is not. -/
def confirm (host : Host) (arguments : Arguments) (question : String) : Session Bool :=
  if arguments.has .yes then pure true
  else
    match host.ask question with
    | .ok answer => pure answer
    | .error reason => do
      Session.say (.event (.unanswered reason))
      return false

/-- The application that a path leads to. -/
def open? (path : Path) (parallel : Bool) : Session App := do
  let disk ← Session.disk
  return if disk.isFolder path then .ofFolder path parallel else .ofArchive path parallel

/-- Decompiles the archive, if there is one. -/
def decompile (host : Host) (settings : Settings) (app : App) : Session App := do
  let attempt ← Session.tell (app.decompile host.launch settings.decompiler (← Session.disk))
  Session.setDisk attempt.disk
  if !attempt.printed.isEmpty then Session.print (.text attempt.printed)
  Session.orFail attempt.result

/-- Removes the archive that was decompiled, if that is wanted. -/
def dropArchive (host : Host) (arguments : Arguments) (app : App) : Session Unit := do
  if app.archive.isSome && arguments.has .deleteArchive then
    if ← confirm host arguments "Delete the APK file?" then
      Session.setDisk (← Session.tell (app.deleteArchive (← Session.disk)))

/-- The layout of disassembly in the settings. -/
def layoutOf (settings : Settings) : Disassembly.Layout :=
  ⟨settings.marker, settings.extension⟩

/-- Reads the decompiled tree. -/
def readTree (settings : Settings) (app : App) : Session App := do
  Session.say (.event (.extracting app.folder))
  let app ← Session.tell (app.load (layoutOf settings) (← Session.disk))
  Session.say (.event (.summary app.text))
  return app

/-- Lists all files of the decompiled tree, if that is wanted. -/
def listAll (host : Host) (arguments : Arguments) (settings : Settings) (app : App) :
    Session Unit := do
  if arguments.has .listAllFiles then
    let files ←
      Session.tell (Disassembly.sources (layoutOf settings) (← Session.disk) app.folder)
    Session.print
      (.text (Report.fileList host.color (some app.folder) Report.allTitle files))

/-- The package to keep: the one on the command line unless it is blank, else the one in
    the manifest. -/
def choosePackage (arguments : Arguments) (app : App) : Session (Option String) := do
  match arguments.package.filter (!Text.isVoid ·) with
  | some package => return some package
  | none => Session.tell (app.package (← Session.disk))

/-- The filter for a package. Without one the lists are not read. -/
def filterFor (settings : Settings) (package : Option String) : Session Filter := do
  if package.isSome then
    let system ← Session.tell (PrefixList.load (← Session.disk) settings.systemLibraries)
    let libraries ← Session.tell (PrefixList.load (← Session.disk) settings.libraries)
    return ⟨system, libraries, settings.mode⟩
  else return .idle

/-- Filters the classes. -/
def sift (arguments : Arguments) (settings : Settings) (app : App) :
    Session (App × FilterReport) := do
  let package ← choosePackage arguments app
  let filter ← filterFor settings package
  Session.tell (app.filter filter package)

/-- The files of the classes, if the report needs them. -/
def filesFor (arguments : Arguments) (settings : Settings) (app : App) :
    Session (List Path) := do
  if arguments.has .listFiles || arguments.form = .json then
    match ← Session.tell (app.sourceFiles (layoutOf settings) (← Session.disk)) with
    | some files => return files
    | none => Session.fail .extensionUnfit
  else return []

/-- What is to be reported. -/
def reportOptions (host : Host) (arguments : Arguments) (app : App) : Report.Options where
  form := arguments.form
  output := arguments.output
  base := some app.folder
  showFiles := arguments.has .listFiles
  showMethods := arguments.has .showMethods
  color := host.color

/-- Makes the report. -/
def report (host : Host) (arguments : Arguments) (settings : Settings) (app : App)
    (filtered : FilterReport) : Session Unit := do
  let files ← filesFor arguments settings app
  let options := reportOptions host arguments app
  let made ← Session.orFail (Report.make options app filtered files (← Session.disk))
  Session.setDisk made.disk
  if !made.printed.isEmpty then Session.print (.text made.printed)
  match made.written with
  | some path => Session.say (.written path)
  | none => return ()

/-- Removes the decompiled tree, if that is wanted. -/
def cleanUp (host : Host) (arguments : Arguments) (app : App) : Session Unit := do
  if arguments.has .cleanup then
    if ← confirm host arguments "Delete the decompiled directory?" then
      Session.setDisk (← Session.tell (app.deleteTree (← Session.disk)))

/-- Tells how long the run took, on the terminal and unless it is to be quiet. -/
def closing (arguments : Arguments) : Session Unit := do
  if !arguments.has .quiet && arguments.form = .terminal then
    Session.print (.text "\n")
    Session.print .elapsed

/-- All steps of a run. -/
def steps (host : Host) (arguments : Arguments) (path : Path) : Session Unit := do
  Session.say (.event (.started Report.version))
  let settings ← settle arguments
  let app ← open? path settings.parallel
  let app ← decompile host settings app
  dropArchive host arguments app
  let app ← readTree settings app
  listAll host arguments settings app
  let (app, filtered) ← sift arguments settings app
  report host arguments settings app filtered
  cleanUp host arguments app
  closing arguments

/-- How a run ended. -/
inductive Ending where
  | done
  | failed (failure : Failure)
  | misused (misuse : Misuse)
  deriving DecidableEq, Repr

/-- The code that the program ends with. -/
def Ending.code : Ending → Nat
  | done => 0
  | failed (.fault _) => 1
  | failed .extensionUnfit => 101
  | misused _ => 2

/-- A run that came to its end. -/
structure Outcome where
  ending : Ending
  disk : Disk
  printed : List Piece
  remarks : List Remark

/-- An outcome that leaves the disk alone. -/
def Outcome.plain (ending : Ending) (disk : Disk) (printed : List Piece) : Outcome :=
  ⟨ending, disk, printed, []⟩

/-- The events that are told at the wanted level: all with `--verbose`, none with
    `--quiet`, and without either of them all but the lowest. -/
def tells (switches : List Switch) (event : Log.Event) : Bool :=
  !switches.contains .quiet && (switches.contains .verbose || event.level ≠ .debug)

/-- The remarks that come through at the wanted level. -/
def heard (arguments : Arguments) (remarks : List Remark) : List Remark :=
  remarks.filter fun remark =>
    match remark with
    | .event event => tells arguments.switches event
    | .written _ => true

/-- The steps of a run, as an outcome. -/
def runSteps (host : Host) (arguments : Arguments) (path : Path) (disk : Disk) : Outcome :=
  let progress := steps host arguments path disk
  let ending := match progress.result with
    | .ok () => Ending.done
    | .error failure => .failed failure
  ⟨ending, progress.disk, progress.printed, heard arguments progress.remarks⟩

/-- The program: from the arguments and the disk to the outcome. -/
def run (host : Host) (arguments : List String) (disk : Disk) : Outcome :=
  match parseArguments arguments with
  | .error .help => .plain .done disk [.text helpText]
  | .error .version => .plain .done disk [.text versionText]
  | .error (.misuse misuse) => .plain (.misused misuse) disk []
  | .ok arguments =>
    match arguments.completions, arguments.path with
    | some shell, _ => .plain .done disk [.text (Completion.script shell)]
    | none, some path => runSteps host arguments path disk
    | none, none => .plain (.misused .pathMissing) disk []

end SmaliSieve.Cli
