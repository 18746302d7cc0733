/-
  SmaliSieve.Tool.Run

  Running an external tool: what is handed to it and what comes back. Nothing is assumed
  of a tool. It may do anything to the disk, print anything, and end in any way.
-/

import SmaliSieve.Fault.Os
import SmaliSieve.Tree.Basic

namespace SmaliSieve.Tool

/-- How a program ended. -/
inductive ExitStatus where
  /-- By itself, with this code. -/
  | exited (code : Nat)
  /-- Through a signal. -/
  | killed (signal : Nat)
  deriving DecidableEq, Repr

/-- The names of signals by number. -/
def signalNames : List (Nat × String) :=
  [(1, "SIGHUP"), (2, "SIGINT"), (3, "SIGQUIT"), (4, "SIGILL"), (5, "SIGTRAP"),
   (6, "SIGABRT"), (7, "SIGBUS"), (8, "SIGFPE"), (9, "SIGKILL"), (10, "SIGUSR1"),
   (11, "SIGSEGV"), (12, "SIGUSR2"), (13, "SIGPIPE"), (14, "SIGALRM"), (15, "SIGTERM"),
   (16, "SIGSTKFLT"), (17, "SIGCHLD"), (18, "SIGCONT"), (19, "SIGSTOP"), (20, "SIGTSTP"),
   (21, "SIGTTIN"), (22, "SIGTTOU"), (23, "SIGURG"), (24, "SIGXCPU"), (25, "SIGXFSZ"),
   (26, "SIGVTALRM"), (27, "SIGPROF"), (28, "SIGWINCH"), (29, "SIGIO"), (30, "SIGPWR"),
   (31, "SIGSYS")]

namespace ExitStatus

/-- The program reports that all went well. -/
def succeeded (status : ExitStatus) : Bool := status = .exited 0

/-- The status as it is shown. -/
def text : ExitStatus → String
  | exited code => s!"exit status: {code}"
  | killed signal =>
    match signalNames.lookup signal with
    | some name => s!"signal: {signal} ({name})"
    | none => s!"signal: {signal}"

end ExitStatus

/-- What a tool left behind: how it ended or why it could not be started, the disk, and
    what it printed. -/
structure Run where
  ending : Except OsError ExitStatus
  disk : Disk
  printed : String

/-- A way to run tools: from the name of a program, its arguments and the disk to what it
    leaves behind. -/
abbrev Launcher := String → List String → Disk → Run

/-- A tool that could not be started. -/
def Run.failed (error : OsError) (disk : Disk) : Run := ⟨.error error, disk, ""⟩

end SmaliSieve.Tool
