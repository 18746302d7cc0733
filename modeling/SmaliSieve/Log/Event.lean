/-
  SmaliSieve.Log.Event

  What is said along the way. Operations return the events they give rise to, in order;
  level and wording are fixed here and nowhere else.
-/

import SmaliSieve.Fault.Basic

namespace SmaliSieve.Log

/-- How urgent an event is. -/
inductive Level where
  | debug
  | info
  | warn
  deriving DecidableEq, Repr

/-- The level as it is written in front of a message. -/
def Level.text : Level → String
  | .debug => "DEBUG"
  | .info => "INFO"
  | .warn => "WARN"

/-- One thing worth telling. -/
inductive Event where
  /-- A run of the program starts. -/
  | started (version : String)
  /-- Something went wrong that is not a reason to stop. -/
  | trouble (fault : Fault)
  /-- The settings were read from a file. -/
  | settingsLoaded (path : Path)
  /-- The decompiler is about to be started. -/
  | decompiling (archive : Path) (binary : String)
  /-- Where the decompiler is told to put its output. -/
  | outputDirectory (path : Path)
  /-- The decompiled tree is about to be read. -/
  | extracting (path : Path)
  /-- So many files were read from the disassembly roots. -/
  | collected (count : Nat)
  /-- So many files go into the class list. -/
  | files (count : Nat)
  /-- A file declares no class. -/
  | noDirective (path : Path)
  /-- So many files declared no class. -/
  | skipped (count : Nat)
  /-- The class list has so many entries. -/
  | classes (count : Nat)
  /-- The class list is empty. -/
  | noClasses
  /-- The method list has so many entries. -/
  | methods (count : Nat)
  /-- The counts of the application, as text. -/
  | summary (text : String)
  /-- The manifest names this package. -/
  | packageFound (package : String)
  /-- The manifest names no package. -/
  | packageAbsent (manifest : Path)
  /-- The manifest could not be parsed. -/
  | manifestBroken (manifest : Path) (reason : String)
  /-- A prefix list was read. -/
  | prefixesLoaded (count : Nat) (path : Path)
  /-- The number of classes the filter starts with. -/
  | beforeFilter (count : Nat)
  /-- Without a package nothing is filtered. -/
  | filterSkipped
  /-- The number of classes under the package. -/
  | afterPackage (package : String) (count : Nat)
  /-- The number of classes left without the system libraries. -/
  | afterSystem (count : Nat)
  /-- The number of classes left without the third-party libraries. -/
  | afterLibraries (count : Nat)
  /-- A file or directory is about to be removed. -/
  | deleting (path : Path)
  /-- The removal failed. -/
  | deleteFailed (path : Path) (cause : OsError)
  /-- A question could not be put to the user. -/
  | unanswered (reason : String)
  deriving DecidableEq, Repr

namespace Event

/-- The level an event is told at. -/
def level : Event → Level
  | settingsLoaded .. | outputDirectory .. | collected .. | noDirective .. | summary ..
  | prefixesLoaded .. => .debug
  | trouble .. | noClasses | packageAbsent .. | manifestBroken .. | deleteFailed ..
  | unanswered .. => .warn
  | _ => .info

/-- The words of an event. -/
def message : Event → String
  | started version => s!"smalisift v{version}"
  | trouble fault => fault.message
  | settingsLoaded path => s!"Loaded config from {path.text}"
  | decompiling archive binary => s!"Decompiling {archive.text} with {binary}"
  | outputDirectory path => s!"Output directory: {path.text}"
  | extracting path => s!"Extracting smali code from {path.text}"
  | collected count => s!"Collected {count} disassembly files"
  | files count => s!"Files: {count}"
  | noDirective path => s!"No class directive in {path.text}"
  | skipped count => s!"Skipped {count} files without a class directive"
  | classes count => s!"Classes: {count}"
  | noClasses => "No classes found"
  | methods count => s!"Methods: {count}"
  | summary text => text
  | packageFound package => s!"Package name from manifest: {package}"
  | packageAbsent manifest => s!"No 'package' attribute in {manifest.text}"
  | manifestBroken manifest reason => s!"Failed to parse {manifest.text}: {reason}"
  | prefixesLoaded count path => s!"Loaded {count} prefixes from {path.text}"
  | beforeFilter count => s!"Classes before filtering: {count}"
  | filterSkipped => "No application package; skipping namespace filtering"
  | afterPackage package count => s!"After application package '{package}': {count}"
  | afterSystem count => s!"After system libraries: {count}"
  | afterLibraries count => s!"After third-party libraries: {count}"
  | deleting path => s!"Deleting {path.text}"
  | deleteFailed path cause => s!"Failed to delete {path.text}: {cause.message}"
  | unanswered reason => s!"Could not read confirmation ({reason}); skipping deletion"

/-- The event as one entry of a log. -/
def text (event : Event) : String :=
  s!"{event.level.text} {event.message}"

end Event

end SmaliSieve.Log
