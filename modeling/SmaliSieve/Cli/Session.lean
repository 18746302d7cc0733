/-
  SmaliSieve.Cli.Session

  Computations that make up a run of the program: they read and change the disk, print,
  tell what happens, and may fail. What was printed and told, and the disk as it is by
  then, outlast a failure; nothing is done after it.
-/

import SmaliSieve.Log.Logged
import SmaliSieve.Tree.Basic

namespace SmaliSieve.Cli

/-- Why a run does not get to its end. -/
inductive Failure where
  | fault (fault : Fault)
  /-- The extension of disassembly files fits no file name. -/
  | extensionUnfit
  deriving DecidableEq, Repr

/-- A piece of what is printed. -/
inductive Piece where
  | text (text : String)
  /-- The line that tells how long the run took. -/
  | elapsed
  deriving DecidableEq, Repr

/-- Something said to the user beside the output. -/
inductive Remark where
  | event (event : Log.Event)
  /-- The report was written to a file. -/
  | written (path : Path)
  deriving DecidableEq, Repr

/-- How far a run got. -/
structure Progress (α : Type) where
  result : Except Failure α
  disk : Disk
  printed : List Piece
  remarks : List Remark

/-- A computation in a run. -/
def Session (α : Type) := Disk → Progress α

namespace Session

/-- One computation, then the next with its result, unless it failed. -/
def andThen {α β : Type} (first : Session α) (next : α → Session β) : Session β := fun disk =>
  let before := first disk
  match before.result with
  | .error failure => ⟨.error failure, before.disk, before.printed, before.remarks⟩
  | .ok a =>
    let after := next a before.disk
    ⟨after.result, after.disk, before.printed ++ after.printed,
      before.remarks ++ after.remarks⟩

instance : Monad Session where
  pure a := fun disk => ⟨.ok a, disk, [], []⟩
  bind := andThen

/-- The disk as it is. -/
def disk : Session Disk := fun disk => ⟨.ok disk, disk, [], []⟩

/-- Another disk in place of the one there is. -/
def setDisk (disk : Disk) : Session Unit := fun _ => ⟨.ok (), disk, [], []⟩

/-- Prints a piece. The standard output takes in all that is printed: where it is closed or
    full, the program panics on the first line that it cannot print, and such runs are left
    out. -/
def print (piece : Piece) : Session Unit := fun disk => ⟨.ok (), disk, [piece], []⟩

/-- Says something. -/
def say (remark : Remark) : Session Unit := fun disk => ⟨.ok (), disk, [], [remark]⟩

/-- Gives up. -/
def fail {α : Type} (failure : Failure) : Session α := fun disk =>
  ⟨.error failure, disk, [], []⟩

/-- The value of a computation, with its events told. -/
def tell {α : Type} (logged : Log.Logged α) : Session α := fun disk =>
  ⟨.ok logged.value, disk, [], logged.events.map .event⟩

/-- The value, or the fault that ends the run. -/
def orFail {α : Type} (result : Except Fault α) : Session α :=
  match result with
  | .ok a => pure a
  | .error fault => fail (.fault fault)

theorem bind_def {α β : Type} (first : Session α) (next : α → Session β) :
    (first >>= next) = andThen first next := rfl

end Session

end SmaliSieve.Cli
