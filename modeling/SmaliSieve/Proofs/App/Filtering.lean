/-
  SmaliSieve.Proofs.App.Filtering

  Filtering an application, once or many times.

  One call has an application hold the classes that it keeps (`filtered_eq`), so any number
  of calls has it hold those that all of them keep (`filteredAll_eq`), and it does not
  matter which call comes first. A call that is made again finds nothing to drop, and then
  every count of its report is the same (`count_of_filtered`). Methods are made anew from
  the classes that are left, which gives those of the old methods whose class is left
  (`methods_filtered_after`).
-/

import SmaliSieve.Proofs.App.History
import SmaliSieve.Proofs.Namespace.Report

namespace SmaliSieve.App

open Namespace (Filter FilterReport Unknown)
open Smali

/-! ## One call -/

/-- A call of the filter: the filter and the package that it is given. -/
abbrev Call := Filter × Option String

/-- A class of this name comes through the call. -/
def Call.keeps (call : Call) (name : String) : Bool := call.1.keeps call.2 name

/-- The application after the call. -/
def filtered (app : App) (call : Call) : App := (app.filter call.1 call.2).value.1

/-- The report that the call gives. -/
def reportOn (app : App) (call : Call) : FilterReport := (app.filter call.1 call.2).value.2

/-- The methods are those of the classes. -/
def Agrees (app : App) : Prop := app.methods = methodsOfAll app.classes

theorem holding_agrees (app : App) (classes : List ClassRecord) : (app.holding classes).Agrees :=
  rfl

theorem holding_holding (app : App) (first second : List ClassRecord) :
    (app.holding first).holding second = app.holding second := rfl

theorem filtered_eq {app : App} (agrees : app.Agrees) (call : Call) :
    app.filtered call = app.holding (app.classes.filter fun record => call.keeps record.className) :=
  filter_value agrees

theorem filtered_agrees {app : App} (agrees : app.Agrees) (call : Call) :
    (app.filtered call).Agrees := by
  rw [filtered_eq agrees]
  exact holding_agrees _ _

theorem classes_filtered {app : App} (agrees : app.Agrees) (call : Call) :
    (app.filtered call).classes = (call.1.apply app.classes call.2).classes := by
  rw [filtered_eq agrees, Filter.apply_classes]
  rfl

theorem reportOn_eq (app : App) (call : Call) :
    app.reportOn call = (call.1.apply app.classes call.2).report := by
  rw [reportOn, App.filter, Log.Logged.value_bind]
  show (if (call.1.apply app.classes call.2).report.skipped then _ else _ :
    Log.Logged (App × FilterReport)).value.2 = _
  split <;> rfl

/-! ## A call that is skipped -/

theorem skipped_reportOn_iff (app : App) (call : Call) :
    (app.reportOn call).skipped = true ↔ Unknown call.2 := by
  rw [reportOn_eq, skipped_apply, Option.isNone_iff_eq_none,
    Namespace.effectivePackage?_eq_none_iff]

/-- Without a package there is no test that a class could fail. -/
theorem keeps_of_unknown {call : Call} (h : Unknown call.2) (name : String) :
    call.keeps name = true := by
  rw [Call.keeps, Filter.keeps, Namespace.effectivePackage?_eq_none_iff.mpr h]

theorem filtered_of_unknown {app : App} (agrees : app.Agrees) {call : Call} (h : Unknown call.2) :
    app.filtered call = app := by
  have hall : (app.classes.filter fun record => call.keeps record.className) = app.classes :=
    List.filter_eq_self.mpr fun record _ => keeps_of_unknown h record.className
  rw [filtered_eq agrees, hall, holding_self agrees]

/-! ## A call that is made again -/

theorem filtered_filtered {app : App} (agrees : app.Agrees) (call : Call) :
    (app.filtered call).filtered call = app.filtered call := by
  rw [filtered_eq (filtered_agrees agrees call), filtered_eq agrees, holding_holding]
  show app.holding (List.filter _ (app.classes.filter _)) = _
  rw [List.filter_filter]
  simp only [Bool.and_self]

/-- The second report tells of no class that was dropped. -/
theorem count_of_filtered {app : App} (agrees : app.Agrees) (call : Call) {count : Nat}
    (h : count ∈ ((app.filtered call).reportOn call).counts) :
    count = (app.reportOn call).finalCount := by
  have hagain : (call.1.apply (app.filtered call).classes call.2).classes =
      (app.filtered call).classes := by
    rw [← classes_filtered (filtered_agrees agrees call), filtered_filtered agrees]
  rw [reportOn_eq] at h
  rw [reportOn_eq, Filter.finalCount_apply, ← classes_filtered agrees]
  exact call.1.count_of_apply_eq_self _ hagain h

/-! ## Many calls -/

/-- The application after some calls, in this order. -/
def filteredAll (app : App) (calls : List Call) : App := calls.foldl filtered app

/-- After any number of calls the classes are left that come through all of them. -/
theorem filteredAll_eq {app : App} (agrees : app.Agrees) (calls : List Call) :
    app.filteredAll calls =
      app.holding (app.classes.filter fun record => calls.all (·.keeps record.className)) := by
  induction calls generalizing app with
  | nil =>
    have hall : (app.classes.filter fun record =>
        ([] : List Call).all (·.keeps record.className)) = app.classes :=
      List.filter_eq_self.mpr fun _ _ => rfl
    rw [hall, holding_self agrees]
    rfl
  | cons call calls ih =>
    show (app.filtered call).filteredAll calls = _
    rw [ih (filtered_agrees agrees call), filtered_eq agrees, holding_holding]
    show app.holding (List.filter _ (app.classes.filter _)) = _
    rw [List.filter_filter]
    simp only [List.all_cons, Bool.and_comm]

theorem filteredAll_perm {app : App} (agrees : app.Agrees) {calls others : List Call}
    (h : calls.Perm others) : app.filteredAll calls = app.filteredAll others := by
  rw [filteredAll_eq agrees, filteredAll_eq agrees]
  simp only [h.all_eq]

/-! ## Applications in use -/

theorem after_agrees (origin : Origin) (steps : List Step) : (origin.after steps).app.Agrees := by
  rw [after_app]
  exact rfl

/-- Whatever was done with an application, any further calls of the filter leave those of its
    classes that come through all of them. These are the classes that were loaded last and
    come through every call since. The order of the calls does not matter. A call is skipped
    exactly if the package is absent or blank; then every class comes through and nothing
    changes. A call that is made again changes nothing either, and the start and the counts
    of its report are the final count of the call before. -/
theorem filteredAll_after (origin : Origin) (steps : List Step) :
    let app := (origin.after steps).app
    let past := (origin.after steps).past
    (∀ calls : List Call,
        (app.filteredAll calls).classes =
            app.classes.filter (fun record => calls.all (·.keeps record.className)) ∧
          (app.filteredAll calls).classes =
            (aggregate past.files).filter fun record =>
              (past.filters ++ calls).all fun call => Call.keeps call record.className) ∧
      (∀ calls others : List Call, calls.Perm others →
        app.filteredAll calls = app.filteredAll others) ∧
      (∀ call : Call, (app.reportOn call).skipped = true ↔ Unknown call.2) ∧
      (∀ call : Call, (app.reportOn call).skipped = true →
        (∀ name, call.keeps name = true) ∧ app.filtered call = app) ∧
      ∀ call : Call,
        (app.filtered call).filtered call = app.filtered call ∧
          ∀ count,
            count = ((app.filtered call).reportOn call).start ∨
              ((app.filtered call).reportOn call).afterPackage = some count ∨
              ((app.filtered call).reportOn call).afterSystem = some count ∨
              ((app.filtered call).reportOn call).afterLibraries = some count →
            count = (app.reportOn call).finalCount := by
  intro app past
  have agrees : app.Agrees := after_agrees origin steps
  refine ⟨fun calls => ?_, fun calls others => filteredAll_perm agrees,
    skipped_reportOn_iff app, fun call hskip => ?_, fun call => ?_⟩
  · have hcalls : (app.filteredAll calls).classes =
        app.classes.filter fun record => calls.all (·.keeps record.className) := by
      rw [filteredAll_eq agrees]
      rfl
    -- the classes of the application came through the calls before
    have hpast : app.classes = past.classes := by
      show (origin.after steps).app.classes = past.classes
      rw [after_app]
      rfl
    refine ⟨hcalls, ?_⟩
    rw [hcalls, hpast, Past.classes, List.filter_filter]
    apply List.filter_congr
    intro record _
    rw [List.all_append, Bool.and_comm]
    rfl
  · have hunknown : Unknown call.2 := (skipped_reportOn_iff app call).mp hskip
    exact ⟨keeps_of_unknown hunknown, filtered_of_unknown agrees hunknown⟩
  · refine ⟨filtered_filtered agrees call, fun count hcount => ?_⟩
    exact count_of_filtered agrees call (FilterReport.mem_counts.mpr hcount)

/-- A decompiled tree with a class of the application and one of a library. -/
def mixedDisk : Disk :=
  ⟨[("app".toList, .folder [("smali".toList, .folder
    [("Main.smali".toList, .file Namespace.mainFile.content.toUTF8 false),
     ("Ad.smali".toList, .file Namespace.adFile.content.toUTF8 false)])])], []⟩

/-- Two calls in either order, one that is skipped, and one that is made again. -/
theorem filteredAll_after_mixedDisk :
    let app := ((Origin.folder (.ofString "app") true).after [⟨mixedDisk, .load .usual⟩]).app
    let own : Call := (Filter.idle, some " com.app ")
    let free : Call := (Namespace.withoutAds, some "com.app")
    let blank : Call := (Namespace.withoutAds, some " ")
    [own, free].Perm [free, own] ∧ (app.reportOn blank).skipped = true ∧
      app.filteredAll [own, free] = app.filteredAll [free, own] ∧
      app.filtered blank = app ∧
      ((app.filtered free).reportOn free).start = (app.reportOn free).finalCount := by
  intro app own free blank
  obtain ⟨-, horder, hskipped, hskip, hagain⟩ :=
    filteredAll_after (.folder (.ofString "app") true) [⟨mixedDisk, .load .usual⟩]
  have hblank : (app.reportOn blank).skipped = true := by
    rw [hskipped, Namespace.unknown_some, ← Text.trim_eq_nil_iff]
    decide
  exact ⟨.swap _ _ _, hblank, horder _ _ (.swap _ _ _), (hskip blank hblank).2,
    (hagain free).2 _ (.inl rfl)⟩

/-! ## Methods -/

/-- The methods that are found in the classes which a call leaves are the old methods, in
    their order, as far as the name of their class comes through: looking for methods anew
    and leaving methods out is the same, for every list of classes. No method of a class
    that is left is lost, changed or moved, and none is added. -/
theorem methods_filtered_after (origin : Origin) (steps : List Step) (call : Call) :
    let app := (origin.after steps).app
    (app.filtered call).methods = extractMethods app.parallel (app.filtered call).classes ∧
      (app.filtered call).methods =
        app.methods.filter (fun method => call.keeps method.className) ∧
      (∀ name, ((app.filtered call).methods.filter fun method => method.className = name) =
        if call.keeps name then app.methods.filter fun method => method.className = name
        else []) ∧
      ∀ (parallel : Bool) (records : List ClassRecord),
        extractMethods parallel (call.1.apply records call.2).classes =
          (extractMethods parallel records).filter fun method => call.keeps method.className := by
  intro app
  have agrees : app.Agrees := after_agrees origin steps
  have hmethods : (app.filtered call).methods =
      app.methods.filter fun method => call.keeps method.className := by
    rw [filtered_agrees agrees call, agrees, filtered_eq agrees]
    exact methodsOfAll_filter call.keeps app.classes
  refine ⟨?_, hmethods, fun name => ?_, fun parallel records => ?_⟩
  · rw [extractMethods_eq]
    exact filtered_agrees agrees call
  · rw [hmethods, List.filter_filter]
    split
    · next hkeep =>
      apply List.filter_congr
      intro method _
      by_cases hname : method.className = name
      · simp [hname, hkeep]
      · simp [hname]
    · next hkeep =>
      rw [List.filter_eq_nil_iff]
      intro method _
      by_cases hname : method.className = name
      · simp [hname, hkeep]
      · simp [hname]
  · rw [extractMethods_eq, extractMethods_eq, Filter.apply_classes]
    exact methodsOfAll_filter call.keeps records

end SmaliSieve.App
