/-
  SmaliSieve.Tool.Decompile

  Decompiling an archive with an external tool. The tool is told where to put its output,
  and is believed only if it ends successfully and a folder stands there.
-/

import SmaliSieve.Log.Logged
import SmaliSieve.Path.Name
import SmaliSieve.Tool.Run
import SmaliSieve.Tree.Reading

namespace SmaliSieve.Tool

/-- The program that decompiles unless another one is named. -/
def usualDecompiler : String := "apktool"

/-- The extension of archives. -/
def archiveExtension : List Char := "apk".toList

/-- The path has the extension of archives, in small letters or capitals. -/
def isArchiveName (path : Path) : Bool :=
  path.extension?.map (·.map Char.toLower) = some archiveExtension

/-- Where the decompiled tree of an archive goes: the path without its extension. A path
    that has another extension or none gets one, so that the tree never takes the place
    of the archive. -/
def outputFolder (archive : Path) : Path :=
  if isArchiveName archive then archive.dropExtension else archive.append ".out"

/-- What the decompiler is told: to overwrite, where to put its output, to be quiet, and
    which archive to take. -/
def arguments (archive output : Path) : List String :=
  ["d", "-f", "-o", output.text, "-q", archive.text]

/-- What came of an attempt: a value or a fault, the disk, and what the tool printed. -/
structure Attempt (α : Type) where
  result : Except Fault α
  disk : Disk
  printed : String

/-- The fault of a tool run that was to put its output into a folder, if there is one. -/
def Run.fault? (run : Run) (binary : String) (output : Path) : Option Fault :=
  match run.ending with
  | .error error => some (.tool binary error.message)
  | .ok status =>
    if !status.succeeded then some (.tool binary s!"exited with {status.text}")
    else if !run.disk.isFolder output then some (.missing .decompilerOutput output)
    else none

/-- Decompiles an archive into its output folder. -/
def decompile (launch : Launcher) (binary : String) (archive : Path) (disk : Disk) :
    Log.Logged (Attempt Path) :=
  if disk.isFile archive then
    let output := outputFolder archive
    let run := launch binary (arguments archive output) disk
    let result := match run.fault? binary output with
      | some fault => .error fault
      | none => .ok output
    ⟨⟨result, run.disk, run.printed⟩, [.decompiling archive binary, .outputDirectory output]⟩
  else ⟨⟨.error (.missing .archive archive), disk, ""⟩, []⟩

end SmaliSieve.Tool
