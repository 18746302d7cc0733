/-
  SmaliSieve.Fault.Basic

  What can go wrong, by cause, and the one wording of each cause. Text that declares no
  class or holds no method is not a fault: it yields nothing.
-/

import SmaliSieve.Fault.Os
import SmaliSieve.Path.Basic

namespace SmaliSieve

/-- A resource that is looked for and may be absent. -/
inductive Resource where
  | archive
  | decompilerOutput
  | decompiledDirectory
  | manifest
  | prefixList
  /-- Any other resource, by the words it is called. -/
  | other (words : String)
  deriving DecidableEq, Repr

/-- The words a resource is called in messages. -/
def Resource.words : Resource → String
  | .archive => "APK"
  | .decompilerOutput => "decompiler output"
  | .decompiledDirectory => "decompiled directory"
  | .manifest => "manifest"
  | .prefixList => "prefix list"
  | .other words => words

/-- The causes for which an operation gives up. -/
inductive Fault where
  /-- An expected file or directory is absent. -/
  | missing (what : Resource) (path : Path)
  /-- The decompiler could not be started or ended unsuccessfully. -/
  | tool (binary : String) (reason : String)
  /-- A file could not be read, written or removed. -/
  | filesystem (path : Path) (cause : OsError)
  /-- A settings file does not hold settings. -/
  | settings (path : Path) (reason : String)
  deriving DecidableEq, Repr

namespace Fault

/-- The fault as it is shown. -/
def message : Fault → String
  | missing what path => s!"missing {what.words}: {path.text}"
  | tool binary reason => s!"{binary} failed: {reason}"
  | filesystem path cause => s!"I/O error for {path.text}: {cause.message}"
  | settings path reason => s!"invalid config {path.text}: {reason}"

/-- The code under which the fault is reported on the command line. -/
def code : Fault → String
  | missing .. => "smalisift::missing_resource"
  | tool .. => "smalisift::external_tool"
  | filesystem .. => "smalisift::filesystem"
  | settings .. => "smalisift::config"

/-- A hint for whoever meets the fault. -/
def help? : Fault → Option String
  | tool .. => some
      "check that apktool is installed and on PATH, or set `decompiler` in the config"
  | _ => none

/-- The message of the failure underneath, if there is one. -/
def cause? : Fault → Option String
  | filesystem _ cause => some cause.message
  | _ => none

end Fault

end SmaliSieve
