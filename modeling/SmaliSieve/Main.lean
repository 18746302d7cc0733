/-
  SmaliSieve.Main

  The program. It reads the working directory, lets `Cli.run` decide on everything, prints
  what there is to print, and brings the file system in line with the outcome. Of what
  stands elsewhere it knows no more than the way from the root and the null device.
  Questions are not put to anybody, so that nothing is removed without `--yes`.
-/

import SmaliSieve.Cli.Wording
import SmaliSieve.Tool.Launch
import SmaliSieve.Tree.Difference

namespace SmaliSieve

/-- A file with these contents is taken to be runnable. -/
def isScript (contents : ByteArray) : Bool :=
  contents[0]? = some 0x23 && contents[1]? = some 0x21

/-- What stands in a folder. Links and special files are left out. -/
partial def readEntries (found : Array IO.FS.DirEntry) : IO (List (Name × FileTree)) := do
  let mut entries := []
  for entry in found do
    match (← entry.path.symlinkMetadata).type with
    | .dir =>
      let tree := FileTree.folder (← readEntries (← entry.path.readDir))
      entries := (entry.fileName.toList, tree) :: entries
    | .file =>
      let contents ← IO.FS.readBinFile entry.path
      entries := (entry.fileName.toList, .file contents (isScript contents)) :: entries
    | _ => pure ()
  return entries.reverse

/-- The working directory as it is, at its place below the root. -/
def readDisk : IO Disk := do
  let current ← IO.currentDir
  let way := (Path.ofString current.toString).pieces.filter fun piece => !Path.isIdle piece
  return .working way (← readEntries (← current.readDir))

/-- Everyone may run a file, and its owner may write it. -/
def runnableRights : IO.FileRight :=
  ⟨⟨true, true, true⟩, ⟨true, false, true⟩, ⟨true, false, true⟩⟩

/-- Makes a step. -/
def perform : Edit → IO Unit
  | .removeFile path => IO.FS.removeFile path.text
  | .removeFolder path => IO.FS.removeDir path.text
  | .makeFolder path => IO.FS.createDirAll path.text
  | .writeFile path contents runnable => do
    IO.FS.writeBinFile path.text contents
    if runnable then IO.setAccessRights path.text runnableRights

/-- Prints what came of a run and brings about its changes. -/
def conclude (color : Bool) (start : Nat) (disk : Disk) (outcome : Cli.Outcome) : IO Unit := do
  outcome.remarks.forM fun remark => IO.eprintln remark.text
  (disk.edits outcome.disk).forM perform
  let milliseconds := (← IO.monoMsNow) - start
  outcome.printed.forM fun piece => IO.print (piece.shown color milliseconds)
  outcome.ending.text?.toList.forM fun text => IO.eprintln text

/-- The output is coloured on a terminal, unless that is not wanted. -/
def wantsColor : IO Bool := do
  let terminal ← (← IO.getStdout).isTty
  return terminal && (← IO.getEnv "NO_COLOR").isNone

end SmaliSieve

open SmaliSieve in
/-- Runs the program. -/
def main (arguments : List String) : IO UInt32 := do
  let start ← IO.monoMsNow
  let color ← wantsColor
  let disk ← readDisk
  let host : Cli.Host := ⟨Tool.launch, fun _ => .error "IO error: not a terminal", color⟩
  let outcome := Cli.run host arguments disk
  conclude color start disk outcome
  return outcome.ending.code.toUInt32
