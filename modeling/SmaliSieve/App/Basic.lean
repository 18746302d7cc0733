/-
  SmaliSieve.App.Basic

  The application under study: where its decompiled tree is, and the classes and methods
  found in it. The method list is made anew from the class list whenever that changes,
  so the two always agree.
-/

import SmaliSieve.Smali.Method
import SmaliSieve.Tool.Decompile

namespace SmaliSieve

open Smali

/-- An application. -/
structure App where
  /-- The archive, if the application still has to be decompiled. -/
  archive : Option Path
  /-- The folder of the decompiled tree. -/
  folder : Path
  classes : List ClassRecord
  methods : List MethodRecord
  /-- The decompiled tree was read. -/
  loaded : Bool
  /-- Methods are looked for in parallel. -/
  parallel : Bool
  deriving DecidableEq, Repr

/-- The counts of an application. -/
structure Counts where
  classes : Nat
  methods : Nat
  /-- Methods per class, rounded down. -/
  average : Nat
  deriving DecidableEq, Repr

namespace App

/-- The application whose decompiled tree stands at `folder`. -/
def ofFolder (folder : Path) (parallel : Bool) : App :=
  ⟨none, folder, [], [], false, parallel⟩

/-- The application in an archive that is still to be decompiled. -/
def ofArchive (archive : Path) (parallel : Bool) : App :=
  { ofFolder (Tool.outputFolder archive) parallel with archive := some archive }

/-- The number of classes, once the tree was read. -/
def classCount? (app : App) : Option Nat :=
  if app.loaded then some app.classes.length else none

/-- The number of methods, once the tree was read. -/
def methodCount? (app : App) : Option Nat :=
  if app.loaded then some app.methods.length else none

/-- The counts of the lists as they are. -/
def counts (app : App) : Counts :=
  let classes := app.classes.length
  let methods := app.methods.length
  ⟨classes, methods, methods / classes⟩

/-- A count as it is shown, a dash if there is none yet. -/
def countText (count : Option Nat) : String :=
  match count with
  | some n => toString n
  | none => "-"

/-- The counts in words. -/
def text (app : App) : String :=
  "App Summary\n"
    ++ s!"  Classes                 : {countText app.classCount?}\n"
    ++ s!"  Methods                 : {countText app.methodCount?}\n"
    ++ s!"  Avg methods per class   : {app.counts.average}"

/-- The application with another class list and the methods that go with it. -/
def withClasses (app : App) (classes : List ClassRecord) : Log.Logged App := do
  let methods ← extractLogged app.parallel classes
  return { app with classes := classes, methods := methods }

end App

end SmaliSieve
