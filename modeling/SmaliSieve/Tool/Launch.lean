/-
  SmaliSieve.Tool.Launch

  Starting programs. A name with a separator is the path of a file on the disk, which has
  to be runnable and a command script. Any other name is looked up among the programs of
  the system, of which only those are known that do nothing but report.
-/

import SmaliSieve.Path.Name
import SmaliSieve.Script.Shell
import SmaliSieve.Text.Blank

namespace SmaliSieve.Tool

/-- The programs that are found by their name, with the code they end with. -/
def systemPrograms : List (String × Nat) :=
  [("true", 0), ("false", 1)]

/-- The programs that can run a command script. -/
def scriptRunners : List String :=
  ["/bin/sh", "/usr/bin/sh", "/bin/bash", "/usr/bin/bash", "/bin/dash", "/usr/bin/dash",
   "/usr/bin/env sh", "/usr/bin/env bash"]

/-- The name of the program that a runner is, without its folders. -/
def baseName (runner : String) : String :=
  String.ofList ((Path.ofString runner).fileName?.getD [])

/-- The program named in the first line of a script, if the line names one. -/
def runnerOf? (contents : String) : Option String :=
  (Text.chop? "#!".toList contents.toList).map fun rest =>
    Text.trimmed (String.ofList (rest.takeWhile (· ≠ '\n')))

/-- A file started as a program. -/
def startFile (contents : ByteArray) (program : String) (arguments : List String)
    (disk : Disk) : Run :=
  match String.fromUTF8? contents with
  | none => .failed .badProgram disk
  | some text =>
    match runnerOf? text with
    | none => .failed .badProgram disk
    | some runner =>
      if scriptRunners.contains runner then Script.runScript text program arguments disk
      else
        match systemPrograms.lookup (baseName runner) with
        | some code => ⟨.ok (.exited code), disk, ""⟩
        | none => .failed .notFound disk

/-- Starts a program on the disk and waits for it to end. -/
def launch : Launcher := fun program arguments disk =>
  if program.toList.contains '\x00' then
    .failed (.other "nul byte found in provided data") disk
  else if program.toList.contains '/' then
    match disk.find (.ofString program) with
    | .error error => .failed error disk
    | .ok (.file contents true) => startFile contents program arguments disk
    | .ok _ => .failed .permissionDenied disk
  else
    match systemPrograms.lookup program with
    | some code => ⟨.ok (.exited code), disk, ""⟩
    | none => .failed .notFound disk

end SmaliSieve.Tool
