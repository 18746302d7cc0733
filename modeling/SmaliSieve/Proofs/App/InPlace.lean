/-
  SmaliSieve.Proofs.App.InPlace

  Decompiling and reading where the application is changed in place.

  The operations on applications give a new application or a fault, and a fault comes
  without any application. Here they are written down as work at a place that holds the
  application and the disk: every step changes the place, a fault ends the work, and what
  was changed before it stays changed. It makes no difference (`decompile_perform`,
  `extract_perform`), since nothing about the application is changed before the last check
  is made.

  So the work is all or nothing (`AllOrNothing`): it fails for the causes that the
  decompiler has and for no other, it then leaves the application exactly as it was,
  whatever state that is in and whatever the tool does, and an application without an
  archive never has the tool started. Reading behind the decompiling takes nothing of this
  away (`AllOrNothing.before_load`).
-/

import SmaliSieve.Proofs.App.Effect
import SmaliSieve.Proofs.Tool.Outcome

namespace SmaliSieve

open Disassembly (Layout)
open Tool (Attempt Launcher)

/-! ## Work on an application -/

/-- An application and the disk that its files are on. -/
structure Workplace where
  app : App
  disk : Disk

/-- Work that changes a workplace step by step. A fault ends it and takes nothing back. -/
abbrev Work := ExceptT Fault (StateM Workplace)

namespace Work

/-- How the work ends, and the workplace by then. -/
def perform {α : Type} (work : Work α) (place : Workplace) : Except Fault α × Workplace :=
  work.run.run place

/-- Has an archive decompiled. The disk is then as the tool leaves it, also after a fault. -/
def unpack (launch : Launcher) (binary : String) (archive : Path) : Work Path := do
  let place ← get
  let attempt := (Tool.decompile launch binary archive place.disk).value
  set { place with disk := attempt.disk }
  attempt.result

/-- Has the archive of the application decompiled, if there is one. -/
def decompile (binary : String) (launch : Launcher) : Work Unit := do
  let place ← get
  match place.app.archive with
  | none => return
  | some archive =>
    let folder ← unpack launch binary archive
    modify fun place => { place with app := { place.app with folder := folder } }

/-- Reads the decompiled tree. -/
def load (layout : Layout) : Work Unit :=
  modify fun place => { place with app := (place.app.load layout place.disk).value }

/-- Has the archive decompiled and reads the tree. -/
def extract (binary : String) (layout : Layout) (launch : Launcher) : Work Unit := do
  decompile binary launch
  load layout

/-! ## What the steps come to -/

theorem perform_bind {α β : Type} (first : Work α) (next : α → Work β) (place : Workplace) :
    (first >>= next).perform place =
      match first.perform place with
      | (.ok a, place) => (next a).perform place
      | (.error fault, place) => (.error fault, place) := by
  unfold perform ExceptT.run StateT.run
  simp only [bind, ExceptT.bind, ExceptT.mk, StateT.bind, ExceptT.bindCont]
  rcases first place with ⟨result, after⟩
  cases result <;> rfl

theorem perform_get (place : Workplace) : (get : Work Workplace).perform place = (.ok place, place) :=
  rfl

variable (binary : String) (layout : Layout) (launch : Launcher) (place : Workplace)

theorem perform_unpack (archive : Path) :
    (unpack launch binary archive).perform place =
      ((Tool.decompile launch binary archive place.disk).value.result,
        ⟨place.app, (Tool.decompile launch binary archive place.disk).value.disk⟩) := by
  rw [unpack]
  rfl

theorem perform_decompile_of_none {place : Workplace} (harchive : place.app.archive = none) :
    (decompile binary launch).perform place = (.ok (), place) := by
  rw [decompile, perform_bind, perform_get]
  simp only [harchive]
  rfl

theorem perform_decompile_of_some {place : Workplace} {archive : Path}
    (harchive : place.app.archive = some archive) :
    (decompile binary launch).perform place =
      ((Tool.decompile launch binary archive place.disk).value.result.map fun _ => (),
        ⟨match (Tool.decompile launch binary archive place.disk).value.result with
          | .ok folder => { place.app with folder := folder }
          | .error _ => place.app,
          (Tool.decompile launch binary archive place.disk).value.disk⟩) := by
  rw [decompile, perform_bind, perform_get]
  dsimp only
  split
  · next hnone => cases hnone.symm.trans harchive
  · next other hsome =>
    obtain rfl : other = archive := Option.some.inj (hsome.symm.trans harchive)
    rw [perform_bind, perform_unpack]
    cases (Tool.decompile launch binary other place.disk).value.result <;> rfl

/-- Reading the tree behind other work does not fail by itself. -/
theorem perform_then_load (work : Work Unit) :
    (work >>= fun _ => load layout).perform place =
      match work.perform place with
      | (.ok _, place) => (.ok (), ⟨(place.app.load layout place.disk).value, place.disk⟩)
      | (.error fault, place) => (.error fault, place) := by
  rw [perform_bind]
  rcases work.perform place with ⟨result, after⟩
  cases result <;> rfl

theorem result_then_load (work : Work Unit) :
    ((work >>= fun _ => load layout).perform place).1 = (work.perform place).1 := by
  rw [perform_then_load]
  rcases work.perform place with ⟨result, after⟩
  cases result <;> rfl

theorem disk_then_load (work : Work Unit) :
    ((work >>= fun _ => load layout).perform place).2.disk = (work.perform place).2.disk := by
  rw [perform_then_load]
  rcases work.perform place with ⟨result, after⟩
  cases result <;> rfl

theorem folder_then_load (work : Work Unit) :
    ((work >>= fun _ => load layout).perform place).2.app.folder =
      (work.perform place).2.app.folder := by
  rw [perform_then_load]
  rcases work.perform place with ⟨result, after⟩
  cases result with
  | error fault => rfl
  | ok _ =>
    dsimp only
    rw [App.load_value]
    rfl

/-- After a fault there is no reading. -/
theorem app_then_load_of_error {work : Work Unit} {fault : Fault}
    (h : (work.perform place).1 = .error fault) :
    ((work >>= fun _ => load layout).perform place).2.app = (work.perform place).2.app := by
  rw [perform_then_load]
  rcases hperform : work.perform place with ⟨result, after⟩
  rw [hperform] at h
  obtain rfl : result = .error fault := h
  rfl

/-! ## The same as operations on applications -/

/-- How an attempt ends, and the workplace if an application that it gives takes the place of
    the one before. -/
def settled (before : App) (attempt : Attempt App) : Except Fault Unit × Workplace :=
  (attempt.result.map fun _ => (), ⟨attempt.result.toOption.getD before, attempt.disk⟩)

theorem decompile_perform :
    (decompile binary launch).perform place =
      settled place.app (place.app.decompile launch binary place.disk).value := by
  cases harchive : place.app.archive with
  | none =>
    rw [perform_decompile_of_none binary launch harchive, App.decompile_of_none harchive]
    rfl
  | some archive =>
    rw [perform_decompile_of_some binary launch harchive, App.decompile_of_some harchive, settled]
    dsimp only
    cases (Tool.decompile launch binary archive place.disk).value.result <;> rfl

theorem extract_perform :
    (extract binary layout launch).perform place =
      settled place.app (place.app.extract launch binary layout place.disk).value := by
  rw [extract, perform_then_load, decompile_perform, App.extract, Log.Logged.value_bind]
  cases hresult : (place.app.decompile launch binary place.disk).value.result with
  | error fault =>
    simp only [settled, hresult]
    rfl
  | ok app =>
    simp only [settled, hresult]
    rfl

/-! ## All or nothing -/

/-- What is to be known of work that has the archive of an application decompiled. -/
structure AllOrNothing (binary : String) (work : Launcher → Work Unit) : Prop where
  /-- A fault leaves the application as it was. -/
  unchanged : ∀ launch place fault, ((work launch).perform place).1 = .error fault →
    ((work launch).perform place).2.app = place.app
  /-- With an archive, the work fails exactly for the causes that the decompiler has. -/
  fails_iff : ∀ launch place archive fault, place.app.archive = some archive →
    (((work launch).perform place).1 = .error fault ↔
      Tool.Fails launch binary archive place.disk fault)
  /-- If it does not fail, the tree is in the folder that goes with the archive. -/
  folder_eq : ∀ launch place archive, place.app.archive = some archive →
    ((work launch).perform place).1 = .ok () →
      ((work launch).perform place).2.app.folder = Tool.outputFolder archive
  /-- Without an archive, the work does not fail. -/
  never_fails : ∀ launch place, place.app.archive = none →
    ((work launch).perform place).1 = .ok ()
  /-- Nor is the tool started: it may be any other tool, and nothing is done to the disk. -/
  never_starts : ∀ launch other place, place.app.archive = none →
    (work launch).perform place = (work other).perform place ∧
      ((work launch).perform place).2.disk = place.disk

theorem allOrNothing_decompile : AllOrNothing binary (decompile binary) where
  unchanged launch place fault h := by
    cases harchive : place.app.archive with
    | none =>
      rw [perform_decompile_of_none binary launch harchive]
    | some archive =>
      rw [perform_decompile_of_some binary launch harchive] at h ⊢
      dsimp only at h ⊢
      -- the folder is set only where the decompiler gives one
      cases hresult : (Tool.decompile launch binary archive place.disk).value.result with
      | error other => rfl
      | ok folder =>
        rw [hresult] at h
        cases h
  fails_iff launch place archive fault harchive := by
    rw [perform_decompile_of_some binary launch harchive, ← Tool.decompile_eq_error_iff]
    dsimp only
    cases (Tool.decompile launch binary archive place.disk).value.result <;> simp [Except.map]
  folder_eq launch place archive harchive h := by
    rw [perform_decompile_of_some binary launch harchive] at h ⊢
    dsimp only at h ⊢
    cases hresult : (Tool.decompile launch binary archive place.disk).value.result with
    | error fault =>
      rw [hresult] at h
      cases h
    | ok folder => exact (Tool.decompile_eq_ok_iff.mp hresult).2
  never_fails launch place harchive := by
    rw [perform_decompile_of_none binary launch harchive]
  never_starts launch other place harchive := by
    rw [perform_decompile_of_none binary launch harchive,
      perform_decompile_of_none binary other harchive]
    exact ⟨rfl, rfl⟩

variable {binary} in
/-- Reading the tree afterwards changes the application only where the work has succeeded. -/
theorem AllOrNothing.before_load {work : Launcher → Work Unit} (h : AllOrNothing binary work) :
    AllOrNothing binary fun launch => work launch >>= fun _ => load layout where
  unchanged launch place fault hfault := by
    rw [result_then_load] at hfault
    rw [app_then_load_of_error layout place hfault]
    exact h.unchanged launch place fault hfault
  fails_iff launch place archive fault harchive := by
    rw [result_then_load]
    exact h.fails_iff launch place archive fault harchive
  folder_eq launch place archive harchive hok := by
    rw [result_then_load] at hok
    rw [folder_then_load]
    exact h.folder_eq launch place archive harchive hok
  never_fails launch place harchive := by
    rw [result_then_load]
    exact h.never_fails launch place harchive
  never_starts launch other place harchive := by
    obtain ⟨hsame, hdisk⟩ := h.never_starts launch other place harchive
    rw [disk_then_load]
    rw [perform_then_load, perform_then_load, ← hsame]
    exact ⟨rfl, hdisk⟩

/-- Decompiling an application, and decompiling and reading it, either succeed or change
    nothing about the application. They fail exactly for the causes that the decompiler has,
    and not at all for an application without an archive. This is about the operations on
    applications, since these come to the same. -/
theorem allOrNothing_extract :
    AllOrNothing binary (decompile binary) ∧ AllOrNothing binary (extract binary layout) ∧
      (∀ launch place, (decompile binary launch).perform place =
        settled place.app (place.app.decompile launch binary place.disk).value) ∧
      ∀ launch place, (extract binary layout launch).perform place =
        settled place.app (place.app.extract launch binary layout place.disk).value :=
  ⟨allOrNothing_decompile binary, (allOrNothing_decompile binary).before_load layout,
    decompile_perform binary, extract_perform binary layout⟩

end Work
end SmaliSieve
