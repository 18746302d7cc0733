/-
  SmaliSieve.Proofs.App.Effect

  What each operation does to an application, one lemma for each. The methods always
  belong to the classes, so an application that is given other classes is `holding` them.
  Decompiling either fails or leaves the application as it is (`decompile_ok`), reading the
  tree has it hold the classes of the files that were read (`load_value`), and filtering
  has it hold the classes that the filter keeps (`filter_value`), also when no package is
  known and the lists are not touched.
-/

import SmaliSieve.App.Operation
import SmaliSieve.Proofs.Namespace.Survival
import SmaliSieve.Proofs.Smali.Extraction
import SmaliSieve.Proofs.Tool.Outcome

namespace SmaliSieve.App

open Disassembly (Layout)
open Namespace (Filter FilterReport effectivePackage?)
open Smali
open Tool (Launcher)

/-- The application with other classes and the methods that belong to them. -/
def holding (app : App) (classes : List ClassRecord) : App :=
  { app with classes := classes, methods := methodsOfAll classes }

theorem holding_self {app : App} (h : app.methods = methodsOfAll app.classes) :
    app.holding app.classes = app := by
  rw [holding, ← h]

theorem withClasses_value (app : App) (classes : List ClassRecord) :
    (app.withClasses classes).value = app.holding classes := by
  show { app with classes := classes, methods := extractMethods app.parallel classes } = _
  rw [extractMethods_eq, holding]

/-- The files that are read when the tree of the application is. -/
def filesOf (layout : Layout) (disk : Disk) (app : App) : List SourceFile :=
  (Disassembly.collect layout disk app.folder).value

theorem load_value (layout : Layout) (disk : Disk) (app : App) :
    (app.load layout disk).value =
      { app.holding (aggregate (app.filesOf layout disk)) with loaded := true } := by
  rw [← withClasses_value]
  rfl

/-! ## Decompiling -/

/-- The tree of an application from an archive stands where the decompiler puts it. -/
def Placed (app : App) : Prop :=
  ∀ archive, app.archive = some archive → app.folder = Tool.outputFolder archive

theorem decompile_of_none {app : App} (harchive : app.archive = none) (launch : Launcher)
    (binary : String) (disk : Disk) :
    (app.decompile launch binary disk).value = ⟨.ok app, disk, ""⟩ := by
  rw [App.decompile]
  split
  · rfl
  · next archive hsome => cases harchive.symm.trans hsome

theorem decompile_of_some {app : App} {archive : Path} (harchive : app.archive = some archive)
    (launch : Launcher) (binary : String) (disk : Disk) :
    (app.decompile launch binary disk).value =
      ⟨(Tool.decompile launch binary archive disk).value.result.map fun folder =>
          { app with folder := folder },
        (Tool.decompile launch binary archive disk).value.disk,
        (Tool.decompile launch binary archive disk).value.printed⟩ := by
  rw [App.decompile]
  split
  · next hnone => cases hnone.symm.trans harchive
  · next other hsome =>
    obtain rfl : other = archive := Option.some.inj (hsome.symm.trans harchive)
    rfl

/-- Where decompiling succeeds, the application is the same as before. -/
theorem decompile_ok {launch : Launcher} {binary : String} {disk : Disk} {app after : App}
    (placed : app.Placed) (h : (app.decompile launch binary disk).value.result = .ok after) :
    after = app := by
  cases harchive : app.archive with
  | none =>
    rw [decompile_of_none harchive] at h
    exact (Except.ok.inj h).symm
  | some archive =>
    rw [decompile_of_some harchive] at h
    dsimp only at h
    cases hresult : (Tool.decompile launch binary archive disk).value.result with
    | error fault =>
      rw [hresult] at h
      cases h
    | ok folder =>
      rw [hresult] at h
      -- the decompiler reports the folder where the tree already is
      have hfolder : folder = app.folder :=
        (Tool.decompile_eq_ok_iff.mp hresult).2.trans (placed archive harchive).symm
      rw [← Except.ok.inj h, hfolder]

/-- Decompiling and reading at once is reading what decompiling leaves, if it succeeds. -/
theorem extract_result {launch : Launcher} {binary : String} {layout : Layout} {disk : Disk}
    {app : App} (placed : app.Placed) :
    (app.extract launch binary layout disk).value.result =
      (app.decompile launch binary disk).value.result.map fun _ =>
        (app.load layout (app.decompile launch binary disk).value.disk).value := by
  rw [extract, Log.Logged.value_bind]
  cases hresult : (app.decompile launch binary disk).value.result with
  | error fault => rfl
  | ok after =>
    rw [decompile_ok placed hresult]
    rfl

/-! ## Filtering -/

/-- A filter leaves an application alone exactly when no package is known. -/
theorem skipped_apply (filter : Filter) (classes : List ClassRecord) (package : Option String) :
    (filter.apply classes package).report.skipped = (effectivePackage? package).isNone := by
  cases hspace : effectivePackage? package with
  | none =>
    rw [Filter.apply, hspace]
    rfl
  | some space =>
    rw [Filter.apply, hspace]
    rfl

theorem filter_value {filter : Filter} {package : Option String} {app : App}
    (agree : app.methods = methodsOfAll app.classes) :
    (app.filter filter package).value.1 =
      app.holding (app.classes.filter fun record => filter.keeps package record.className) := by
  rw [App.filter, Log.Logged.value_bind, ← Filter.apply_classes]
  show (if (filter.apply app.classes package).report.skipped then _ else _ :
    Log.Logged (App × FilterReport)).value.1 = _
  by_cases hskip : (filter.apply app.classes package).report.skipped = true
  · have hnone : effectivePackage? package = none := by
      rw [skipped_apply] at hskip
      exact Option.isNone_iff_eq_none.mp hskip
    -- without a package every class is kept, and holding them all changes nothing
    have hclasses : (filter.apply app.classes package).classes = app.classes := by
      rw [Filter.apply, hnone]
    rw [if_pos hskip, hclasses, holding_self agree]
    rfl
  · rw [if_neg hskip, ← withClasses_value]
    rfl

end SmaliSieve.App
