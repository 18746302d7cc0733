/-
  SmaliSieve.Proofs.App.Lists

  What can be relied on about the lists of an application, whatever was done with it
  before.

  The methods are those of the classes, the classes are a sorted part of what was read
  last, and the counts say how long the lists are once something was read (`after_lists`).
  Whether a class name occurs twice is a matter of the files: it does exactly if two classes
  that came through the filters differ in dots for slashes only
  (`distinct_classNames_iff`).
-/

import SmaliSieve.Proofs.App.History
import SmaliSieve.Proofs.Smali.Naming

namespace SmaliSieve.App

open Smali

/-! ## Classes and methods -/

namespace Past

/-- The classes are a part of what the files that were read last give. -/
theorem classes_sublist (past : Past) : past.classes.Sublist (past.lastRead.elim [] aggregate) := by
  have hpart : past.classes.Sublist (aggregate past.files) := List.filter_sublist
  cases hread : past.lastRead with
  | none => simpa [files, hread, aggregate_nil] using hpart
  | some read => simpa [files, hread] using hpart

theorem classes_sorted (past : Past) : (past.classes.map (·.className)).Pairwise (· ≤ ·) :=
  (aggregate_sorted past.files).sublist (List.filter_sublist.map _)

/-- Instead of the classes, the files could have been filtered. -/
theorem classes_eq_aggregate (past : Past) :
    past.classes = aggregate (past.files.filter (·.passes past.keeps)) :=
  filter_aggregate past.keeps past.files

theorem classCount?_appOf (past : Past) (origin : App) :
    (past.appOf origin).classCount? = past.lastRead.map fun _ => past.classes.length := by
  rw [App.classCount?, appOf]
  cases past.lastRead <;> rfl

theorem methodCount?_appOf (past : Past) (origin : App) :
    (past.appOf origin).methodCount? =
      past.lastRead.map fun _ => (methodsOfAll past.classes).length := by
  rw [App.methodCount?, appOf]
  cases past.lastRead <;> rfl

end Past

/-- Whatever is done with an application, its methods are those of its classes, class by
    class; its classes are sorted by name and a part of what the files that were read last
    give; there are counts exactly if something was read, and then they are the lengths of
    the lists; and its tree has stayed where it was. -/
theorem after_lists (origin : Origin) (steps : List Step) :
    (origin.after steps).app.methods = (origin.after steps).app.classes.flatMap methodsOf ∧
      (∀ method ∈ (origin.after steps).app.methods,
        ∃ record ∈ (origin.after steps).app.classes, method.className = record.className) ∧
      ((origin.after steps).app.classes.map (·.className)).Pairwise (· ≤ ·) ∧
      (origin.after steps).app.classes.Sublist
        ((origin.after steps).past.lastRead.elim [] aggregate) ∧
      (origin.after steps).app.classCount? =
        (origin.after steps).past.lastRead.map
          (fun _ => (origin.after steps).app.classes.length) ∧
      (origin.after steps).app.methodCount? =
        (origin.after steps).past.lastRead.map
          (fun _ => (origin.after steps).app.methods.length) ∧
      (origin.after steps).app.folder = origin.app.folder := by
  rw [after_app]
  generalize (origin.after steps).past = past
  refine ⟨rfl, ?_, past.classes_sorted, past.classes_sublist, past.classCount?_appOf _,
    past.methodCount?_appOf _, rfl⟩
  intro method hmethod
  obtain ⟨record, hrecord, hmem⟩ := List.mem_flatMap.mp hmethod
  exact ⟨record, hrecord, className_of_mem_methodsOf hmem⟩

/-! ## Names -/

theorem Past.nodup_className_iff (past : Past) :
    (past.classes.map (·.className)).Nodup ↔
      Unambiguous (past.files.filter (·.passes past.keeps)) := by
  rw [classes_eq_aggregate, Smali.nodup_className_iff]

/-- The names of the class list are all different, and so strictly sorted, exactly if no two
    classes of the files have the same dotted name. In an application this concerns the
    files that were read last, as far as their classes came through the filters. -/
theorem distinct_classNames_iff (files : List SourceFile) (origin : Origin) (steps : List Step) :
    (((aggregate files).map (·.className)).Nodup ↔ Unambiguous files) ∧
      (((aggregate files).map (·.className)).Pairwise (· < ·) ↔ Unambiguous files) ∧
      (((origin.after steps).app.classes.map (·.className)).Nodup ↔
        Unambiguous ((origin.after steps).past.files.filter
          (·.passes (origin.after steps).past.keeps))) ∧
      (((origin.after steps).app.classes.map (·.className)).Pairwise (· < ·) ↔
        Unambiguous ((origin.after steps).past.files.filter
          (·.passes (origin.after steps).past.keeps))) := by
  rw [after_app]
  generalize (origin.after steps).past = past
  have hfiles : ((aggregate files).map (·.className)).Nodup ↔ Unambiguous files :=
    Smali.nodup_className_iff
  have hlist : (past.classes.map (·.className)).Nodup ↔
      Unambiguous (past.files.filter (·.passes past.keeps)) := past.nodup_className_iff
  exact ⟨hfiles, (pairwise_lt_iff_nodup (aggregate_sorted files)).trans hfiles,
    hlist, (pairwise_lt_iff_nodup past.classes_sorted).trans hlist⟩

/-- `La/b;` and `La.b;` are two classes, and both are called `a.b`. -/
theorem not_nodup_slash_dot :
    ¬ ((aggregate [⟨"A.smali", ".class La/b;", .ofString ""⟩,
        ⟨"B.smali", ".class La.b;", .ofString ""⟩]).map (·.className)).Nodup := by
  rw [Smali.nodup_className_iff]
  intro h
  have hsame : "a/b" = "a.b" := by
    apply h ⟨"A.smali", ".class La/b;", .ofString ""⟩ (by simp)
      ⟨"B.smali", ".class La.b;", .ofString ""⟩ (by simp)
    · decide +kernel
    · decide +kernel
    · decide +kernel
  exact absurd hsame (by decide)

end SmaliSieve.App
