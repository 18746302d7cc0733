/-
  SmaliSieve.Script.Shell

  Running command scripts on a disk. The commands are those that a wrapper around a
  decompiler needs: making folders and files, copying and removing them, tests, and
  ending with a status or a signal.
-/

import SmaliSieve.Path.Name
import SmaliSieve.Script.Command
import SmaliSieve.Script.Print
import SmaliSieve.Tool.Run
import SmaliSieve.Tree.Change

namespace SmaliSieve.Script

open Tool (ExitStatus)

/-- The state of a running script. -/
structure Shell where
  frame : Frame
  disk : Disk
  /-- What was printed and not redirected. -/
  printed : ByteArray
  /-- How the script ended, once it has. -/
  ending : Option ExitStatus

/-- What a command leaves behind: its status, the bytes it prints, and the state. -/
structure Effect where
  status : Nat
  printed : ByteArray
  shell : Shell

namespace Shell

/-- The bytes of some text. -/
def bytes (text : List Char) : ByteArray := (String.ofList text).toUTF8

/-- The shell with the status of the last command. -/
def withStatus (shell : Shell) (status : Nat) : Shell :=
  { shell with frame := { shell.frame with status := status } }

/-- The effect of doing nothing with the given status. -/
def quiet (shell : Shell) (status : Nat) : Effect := ⟨status, .empty, shell⟩

/-- The effect of changing the disk, or of failing to. -/
def changing (shell : Shell) (result : Except OsError Disk) : Effect :=
  match result with
  | .ok disk => ⟨0, .empty, { shell with disk := disk }⟩
  | .error _ => shell.quiet 1

/-- The effect of `change` for each path in turn; one failure does not stop the others. -/
def changingEach (shell : Shell) (change : Disk → Path → Except OsError Disk)
    (paths : List (List Char)) : Effect :=
  paths.foldl (fun effect path =>
      let next := effect.shell.changing (change effect.shell.disk ⟨path⟩)
      ⟨max effect.status next.status, .empty, next.shell⟩)
    (shell.quiet 0)

/-- The arguments apart from the options, which start with a dash. -/
def operands (arguments : List (List Char)) : List (List Char) :=
  arguments.filter (·.head? ≠ some '-')

/-- One of the arguments is an option with this letter. -/
def hasOption (arguments : List (List Char)) (letter : Char) : Bool :=
  arguments.any fun argument => argument.head? = some '-' && argument.contains letter

/-- Where a copy of `source` goes: into `target` if that is a folder. -/
def copyTarget (disk : Disk) (source target : Path) : Path :=
  if disk.isFolder target then target.join (source.fileName?.getD []) else target

/-- The disk with a copy of `source`. -/
def copy (target : Path) (disk : Disk) (source : Path) : Except OsError Disk :=
  (disk.readBytes source).bind (disk.write (copyTarget disk source target))

/-- The disk without what is at `path`. -/
def remove (whole : Bool) (disk : Disk) (path : Path) : Except OsError Disk :=
  if whole && disk.isFolder path then
    match disk.removeTree path with
    | ⟨disk, none⟩ => .ok disk
    | ⟨_, some error⟩ => .error error
  else disk.removeFile path

/-- The truth of a test. -/
def test (disk : Disk) : List (List Char) → Bool
  | [['-', 'd'], path] => disk.isFolder ⟨path⟩
  | [['-', 'f'], path] => disk.isFile ⟨path⟩
  | [['-', 'e'], path] => (disk.find ⟨path⟩).toOption.isSome
  | [['-', 'n'], text] => !text.isEmpty
  | [['-', 'z'], text] => text.isEmpty
  | [left, ['='], right] => left = right
  | [left, ['!', '='], right] => left ≠ right
  | [['!'], left, right] => !test disk [left, right]
  | [text] => !text.isEmpty
  | _ => false

/-- The number of a signal, by number or name. -/
def signal? (text : List Char) : Option Nat :=
  let text := String.ofList text
  match text.toNat? with
  | some number => some number
  | none =>
    (Tool.signalNames.find? fun entry => entry.2 = text || entry.2 = "SIG" ++ text).map (·.1)

/-- The signal that `kill` sends to the script itself, if it does. -/
def killedBy? : List (List Char) → Option Nat
  | [target] => if target = digits ownNumber then some 15 else none
  | [['-', 's'], name, target] => if target = digits ownNumber then signal? name else none
  | ['-' :: name, target] => if target = digits ownNumber then signal? name else none
  | _ => none

/-- The number that an exit status is written as. -/
def exitCode (shell : Shell) : List (List Char) → Nat
  | [] => shell.frame.status
  | code :: _ => (String.ofList code).toNat?.getD 2 % 256

/-- The effect of the command `name`. -/
def perform (shell : Shell) (name : String) (arguments : List (List Char)) : Effect :=
  match name with
  | ":" | "true" | "set" | "sleep" => shell.quiet 0
  | "false" => shell.quiet 1
  | "exit" =>
    { shell.quiet 0 with shell.ending := some (.exited (shell.exitCode arguments)) }
  | "kill" =>
    match killedBy? arguments with
    | some number => { shell.quiet 0 with shell.ending := some (.killed number) }
    | none => shell.quiet 1
  | "echo" => ⟨0, bytes (echoText arguments), shell⟩
  | "printf" =>
    match arguments with
    | format :: rest => ⟨0, bytes (formatText format rest), shell⟩
    | [] => shell.quiet 2
  | "cat" =>
    match arguments.mapM fun path => (shell.disk.readBytes ⟨path⟩).toOption with
    | some contents => ⟨0, contents.foldl (· ++ ·) .empty, shell⟩
    | none => shell.quiet 1
  | "mkdir" =>
    let change := if hasOption arguments 'p' then Disk.makeFolders else Disk.makeFolder
    shell.changingEach change (operands arguments)
  | "touch" => shell.changingEach (fun disk path => disk.append path .empty) arguments
  | "rm" =>
    let whole := hasOption arguments 'r' || hasOption arguments 'R'
    let effect := shell.changingEach (remove whole) (operands arguments)
    if hasOption arguments 'f' then { effect with status := 0 } else effect
  | "cp" =>
    match (operands arguments).reverse with
    | target :: sources => shell.changingEach (copy ⟨target⟩) sources.reverse
    | [] => shell.quiet 1
  | "mv" =>
    match operands arguments with
    | [source, target] =>
      let moved := (copy ⟨target⟩ shell.disk ⟨source⟩).bind (·.removeFile ⟨source⟩)
      shell.changing moved
    | _ => shell.quiet 1
  | "chmod" =>
    match arguments with
    | mode :: paths =>
      let runnable := mode.contains 'x' || mode.contains '7' || mode.contains '5'
      shell.changingEach (fun disk path => disk.setRunnable path runnable) paths
    | [] => shell.quiet 1
  | "test" => shell.quiet (if test shell.disk arguments then 0 else 1)
  | "[" => shell.quiet (if test shell.disk arguments.dropLast then 0 else 1)
  | _ => shell.quiet 127

/-- Where what a command prints goes. -/
inductive Sink where
  | printed
  | nowhere
  | file (path : Path)
  deriving DecidableEq, Repr

/-- The state and the sink once a redirection is made; `none` if it cannot be made. -/
def redirect (shell : Shell) (sink : Sink) (redirection : Redirection) :
    Option (Shell × Sink) :=
  let target : Path := ⟨(shell.frame.expand redirection.target).flatten⟩
  if redirection.sign = ['>', '&'] || target.text = "/dev/null" then
    some (shell, if redirection.stream = 1 then .nowhere else sink)
  else if redirection.sign = ['<'] then
    if (shell.disk.readBytes target).toOption.isSome then some (shell, sink) else none
  else
    let opened :=
      if redirection.sign = ['>'] then shell.disk.write target .empty
      else shell.disk.append target .empty
    match opened with
    | .ok disk =>
      some ({ shell with disk := disk },
        if redirection.stream = 1 then .file target else sink)
    | .error _ => none

/-- The state with `printed` handed to the sink. -/
def pour (shell : Shell) (printed : ByteArray) : Sink → Shell
  | .printed => { shell with printed := shell.printed ++ printed }
  | .nowhere => shell
  | .file path =>
    match shell.disk.append path printed with
    | .ok disk => { shell with disk := disk }
    | .error _ => shell

/-- The variable and the value that a word assigns, if it is an assignment. -/
def assignment? (frame : Frame) (word : Word) : Option (List Char × List Char) :=
  let start := word.takeWhile fun part =>
    match part with
    | .literal [c] false => c ≠ '='
    | _ => false
  match bareText? start, word.drop start.length with
  | some (c :: name), .literal ['='] false :: value =>
    if (c :: name).all isNameChar && !c.isDigit then
      some (c :: name, (frame.expand value).flatten)
    else none
  | _, _ => none

/-- A simple command run: leading assignments are made, the redirections prepared, and
    what the command prints goes where they say. -/
def runSimple (shell : Shell) (words : List Word) (redirections : List Redirection) :
    Shell :=
  let assignments := (words.map (assignment? shell.frame)).takeWhile Option.isSome
  let bindings := assignments.reverse.filterMap id ++ shell.frame.bindings
  let shell := { shell with frame := { shell.frame with bindings := bindings } }
  -- files are opened before the command runs, so they are there even if it fails
  match redirections.foldlM (fun state redirection => redirect state.1 state.2 redirection)
      (shell, Sink.printed) with
  | none => shell.withStatus 2
  | some (shell, sink) =>
    match shell.frame.expandAll (words.drop assignments.length) with
    | [] => shell.withStatus 0
    | name :: arguments =>
      let effect := shell.perform (String.ofList name) arguments
      (effect.shell.withStatus effect.status).pour effect.printed sink

/-- The last command went well. -/
def wentWell (shell : Shell) : Bool := shell.frame.status = 0

/-- The state after a command. Once the script has ended, nothing happens any more. -/
def run (shell : Shell) : Command → Shell
  | .nothing => shell
  | .simple words redirections =>
    if shell.ending.isSome then shell else shell.runSimple words redirections
  | .sequence first second => (shell.run first).run second
  | .both first second =>
    let shell := shell.run first
    if shell.wentWell then shell.run second else shell
  | .either first second =>
    let shell := shell.run first
    if shell.wentWell then shell else shell.run second
  | .negated command =>
    let shell := shell.run command
    shell.withStatus (if shell.wentWell then 1 else 0)
  | .choice test yes no =>
    let shell := shell.run test
    if shell.wentWell then shell.run yes else (shell.withStatus 0).run no
  | .forEach name words body =>
    (shell.frame.expandAll words).foldl (fun shell value =>
        let bindings := (name, value) :: shell.frame.bindings
        Shell.run { shell with frame := { shell.frame with bindings := bindings } } body)
      shell

end Shell

/-- A script run under a name with some arguments: how it ended, the disk afterwards and
    what it printed. A script that cannot be read ends with the code 2. -/
def runScript (text : String) (program : String) (arguments : List String) (disk : Disk) :
    Tool.Run :=
  let frame : Frame := ⟨program.toList, arguments.map String.toList, [], 0⟩
  match readScript text.toList with
  | none => ⟨.ok (.exited 2), disk, ""⟩
  | some command =>
    let shell := Shell.run ⟨frame, disk, .empty, none⟩ command
    ⟨.ok (shell.ending.getD (.exited shell.frame.status)), shell.disk,
      (String.fromUTF8? shell.printed).getD ""⟩

end SmaliSieve.Script
