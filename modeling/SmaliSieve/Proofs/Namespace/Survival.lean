/-
  SmaliSieve.Proofs.Namespace.Survival

  Which classes a filter leaves, and that this can be decided before there are classes.

  The three passes together keep exactly the classes whose name survives
  (`apply_classes`), and whether a name survives depends on the filter and the package
  alone. So the filter may as well be applied to the files before they are grouped: files
  of other classes, and files without a class, have no say in what a surviving class looks
  like (`apply_aggregate`).
-/

import SmaliSieve.Namespace.Filter
import SmaliSieve.Proofs.Smali.Grouping
import SmaliSieve.Smali.Method

namespace SmaliSieve.Namespace

open Smali

/-! ## The passes as one test -/

/-- A class of this name is left: no package is known, or the name lies in the package and
    in none of the libraries. -/
def Filter.keeps (filter : Filter) (package : Option String) (name : String) : Bool :=
  match effectivePackage? package with
  | none => true
  | some space =>
    filter.mode.covers name space
      && (!filter.system.coversAny filter.mode name && !filter.libraries.coversAny filter.mode name)

/-- A pass that is left out would have dropped nothing. -/
theorem Filter.pass_classes (filter : Filter) (list : PrefixList) (classes : List ClassRecord) :
    (filter.pass list classes).1 =
      classes.filter fun record => !list.coversAny filter.mode record.className := by
  rw [pass]
  by_cases hempty : list.isEmpty = true
  · have hentries : list.entries = [] := by simpa [PrefixList.isEmpty] using hempty
    have hall : ∀ record ∈ classes, (!list.coversAny filter.mode record.className) = true := by
      intro record _
      simp [PrefixList.coversAny, hentries]
    rw [if_pos hempty, List.filter_eq_self.mpr hall]
  · rw [if_neg hempty]
    rfl

/-- The classes that a filter leaves, in the order in which they came. -/
theorem Filter.apply_classes (filter : Filter) (classes : List ClassRecord)
    (package : Option String) :
    (filter.apply classes package).classes =
      classes.filter fun record => filter.keeps package record.className := by
  cases hspace : effectivePackage? package with
  | none =>
    have hall : ∀ record ∈ classes, filter.keeps package record.className = true := by
      intro record _
      rw [keeps, hspace]
    rw [List.filter_eq_self.mpr hall, apply, hspace]
  | some space =>
    -- three passes, each a test of the name, are one test
    have hpasses : (filter.apply classes package).classes =
        (filter.pass filter.libraries
          (filter.pass filter.system (retainPackage filter.mode space classes)).1).1 := by
      rw [apply, hspace]
    have hkeeps : ∀ record ∈ classes, filter.keeps package record.className =
        (!filter.libraries.coversAny filter.mode record.className
          && !filter.system.coversAny filter.mode record.className
          && filter.mode.covers record.className space) := by
      intro record _
      rw [keeps, hspace]
      show (_ && (_ && _)) = _
      rw [Bool.and_comm (!filter.libraries.coversAny _ _), Bool.and_comm]
    rw [hpasses, pass_classes, pass_classes, retainPackage, List.filter_filter,
      List.filter_filter, List.filter_congr hkeeps]

/-! ## Early and late -/

/-- The file declares a class that the filter leaves. -/
def Filter.keepsFile (filter : Filter) (package : Option String) (file : SourceFile) : Bool :=
  file.passes (filter.keeps package)

/-- Filtering the class list gives the classes, and so the methods, of the files that declare
    a class which survives. Two lists of files that differ in other files only therefore
    have the same classes and methods behind the filter. -/
theorem Filter.apply_aggregate (filter : Filter) (package : Option String)
    (files : List SourceFile) :
    (filter.apply (aggregate files) package).classes =
        aggregate (files.filter (filter.keepsFile package)) ∧
      (∀ parallel, extractMethods parallel (filter.apply (aggregate files) package).classes =
        extractMethods parallel (aggregate (files.filter (filter.keepsFile package)))) ∧
      ∀ others : List SourceFile,
        others.filter (filter.keepsFile package) = files.filter (filter.keepsFile package) →
        (filter.apply (aggregate others) package).classes =
            (filter.apply (aggregate files) package).classes ∧
          ∀ parallel, extractMethods parallel (filter.apply (aggregate others) package).classes =
            extractMethods parallel (filter.apply (aggregate files) package).classes := by
  have early : ∀ files : List SourceFile, (filter.apply (aggregate files) package).classes =
      aggregate (files.filter (filter.keepsFile package)) := by
    intro files
    rw [apply_classes, filter_aggregate]
    rfl
  refine ⟨early files, fun parallel => by rw [early files], fun others hothers => ?_⟩
  have hsame : (filter.apply (aggregate others) package).classes =
      (filter.apply (aggregate files) package).classes := by
    rw [early others, early files, hothers]
  exact ⟨hsame, fun parallel => by rw [hsame]⟩

/-- A filter against an advertising library that hides in the application's package. -/
def withoutAds : Filter := ⟨.empty, ⟨["com.app.ads"]⟩, .plain⟩

/-- The only class file of the application itself. -/
def mainFile : SourceFile :=
  ⟨"Main.smali", ".class Lcom/app/Main;\n.method run()V\n.end method",
    .ofString "smali/com/app/Main.smali"⟩

/-- A class file of the library. It leaves a method block open. -/
def adFile : SourceFile :=
  ⟨"Ad.smali", ".class Lcom/app/ads/Ad;\n.method show()V",
    .ofString "smali/com/app/ads/Ad.smali"⟩

/-- A file in which there is no class. -/
def notesFile : SourceFile := ⟨"Notes.txt", "see Lcom/app/Main;", .ofString "smali/Notes.txt"⟩

/-- What stands beside the file of the application does not matter to it. -/
theorem Filter.apply_aggregate_withoutAds :
    [notesFile, mainFile].filter (withoutAds.keepsFile (some "com.app")) =
        [mainFile, adFile].filter (withoutAds.keepsFile (some "com.app")) ∧
      (withoutAds.apply (aggregate [notesFile, mainFile]) (some "com.app")).classes =
        (withoutAds.apply (aggregate [mainFile, adFile]) (some "com.app")).classes := by
  have hsame : [notesFile, mainFile].filter (withoutAds.keepsFile (some "com.app")) =
      [mainFile, adFile].filter (withoutAds.keepsFile (some "com.app")) := by decide +kernel
  have hlate := (Filter.apply_aggregate withoutAds (some "com.app") [mainFile, adFile]).2.2
  exact ⟨hsame, (hlate [notesFile, mainFile] hsame).1⟩

end SmaliSieve.Namespace
