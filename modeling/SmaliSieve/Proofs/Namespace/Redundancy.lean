/-
  SmaliSieve.Proofs.Namespace.Redundancy

  What it does not matter how the lists of a filter are written.

  All that counts about the two lists is which names they cover between them
  (`Filter.keeps_congr`): the two passes after the first one are one test
  (`Filter.keeps_of_some`), and a pass that is left out would have dropped nothing. So the
  order of the entries, how often they are repeated and which of the lists they are in make
  no difference, and neither does an entry that lies in the namespace of another one
  (`CoveredBy.any_covers`, by transitivity of covering). `Filter.apply_classes_of_spaces` says
  so of the classes that a filter leaves.
-/

import SmaliSieve.Proofs.Namespace.Containment
import SmaliSieve.Proofs.Namespace.Survival

namespace SmaliSieve.Namespace

open Smali

/-! ## Lists of namespaces -/

/-- Each of the namespaces lies in one of the others. -/
def CoveredBy (mode : Mode) (spaces others : List String) : Prop :=
  ∀ space ∈ spaces, ∃ other ∈ others, mode.covers space other = true

theorem CoveredBy.of_subset {mode : Mode} {spaces others : List String} (h : spaces ⊆ others) :
    CoveredBy mode spaces others :=
  fun space hspace => ⟨space, h hspace, covers_self mode space⟩

/-- A name that one of the namespaces covers is covered by one of the others. -/
theorem CoveredBy.any_covers {mode : Mode} {spaces others : List String}
    (h : CoveredBy mode spaces others) {name : String}
    (hname : spaces.any (mode.covers name) = true) : others.any (mode.covers name) = true := by
  obtain ⟨space, hspace, hcovers⟩ := List.any_eq_true.mp hname
  obtain ⟨other, hother, houter⟩ := h space hspace
  exact List.any_eq_true.mpr ⟨other, hother, covers_trans hcovers houter⟩

/-- Lists of namespaces that lie in each other cover the same names. -/
theorem any_covers_eq {mode : Mode} {spaces others : List String}
    (h : CoveredBy mode spaces others) (h' : CoveredBy mode others spaces) (name : String) :
    spaces.any (mode.covers name) = others.any (mode.covers name) :=
  Bool.eq_iff_iff.mpr ⟨h.any_covers, h'.any_covers⟩

/-! ## The lists of a filter -/

namespace Filter

/-- The namespaces of both lists. -/
def spaces (filter : Filter) : List String :=
  filter.system.entries ++ filter.libraries.entries

/-- With a package, a name is kept if it lies in that and in no namespace of either list. -/
theorem keeps_of_some {package : Option String} {space : String}
    (h : effectivePackage? package = some space) (filter : Filter) (name : String) :
    filter.keeps package name =
      (filter.mode.covers name space && !filter.spaces.any (filter.mode.covers name)) := by
  rw [keeps, h, spaces, List.any_append, Bool.not_or]
  rfl

/-- Filters that compare names alike and cover the same names keep the same names. -/
theorem keeps_congr {filter other : Filter} (hmode : other.mode = filter.mode)
    (h : ∀ name, other.spaces.any (filter.mode.covers name) =
      filter.spaces.any (filter.mode.covers name)) (package : Option String) (name : String) :
    other.keeps package name = filter.keeps package name := by
  cases hspace : effectivePackage? package with
  | none => rw [keeps, keeps, hspace]
  | some space => rw [keeps_of_some hspace, keeps_of_some hspace, hmode, h name]

variable {filter other : Filter} (hmode : other.mode = filter.mode)
  (classes : List ClassRecord) (package : Option String)
include hmode

theorem apply_classes_congr
    (h : ∀ name, other.spaces.any (filter.mode.covers name) =
      filter.spaces.any (filter.mode.covers name)) :
    (other.apply classes package).classes = (filter.apply classes package).classes := by
  rw [apply_classes, apply_classes]
  exact List.filter_congr fun record _ => keeps_congr hmode h package record.className

/-- Which classes are left depends on the mode and on what the two lists cover between them.
    It is the same for two filters that have the same entries, in any order, any number of
    times and in either list, and for a filter with one entry less that lies in the
    namespace of an entry which is still there. -/
theorem apply_classes_of_spaces :
    ((∀ name, other.spaces.any (filter.mode.covers name) =
        filter.spaces.any (filter.mode.covers name)) →
      (other.apply classes package).classes = (filter.apply classes package).classes) ∧
    ((∀ space, space ∈ other.spaces ↔ space ∈ filter.spaces) →
      (other.apply classes package).classes = (filter.apply classes package).classes) ∧
    ∀ dropped outer, filter.spaces.Perm (dropped :: other.spaces) → outer ∈ other.spaces →
      filter.mode.covers dropped outer = true →
      (other.apply classes package).classes = (filter.apply classes package).classes := by
  -- the second and the third are cases of lists that lie in each other
  have hmutual : CoveredBy filter.mode other.spaces filter.spaces →
      CoveredBy filter.mode filter.spaces other.spaces →
      (other.apply classes package).classes = (filter.apply classes package).classes :=
    fun h h' => apply_classes_congr hmode classes package (any_covers_eq h h')
  refine ⟨apply_classes_congr hmode classes package, fun hsame => ?_,
    fun dropped outer hperm houter hcovers => ?_⟩
  · exact hmutual (.of_subset fun space => (hsame space).mp)
      (.of_subset fun space => (hsame space).mpr)
  · refine hmutual (.of_subset fun space hspace => ?_) fun space hspace => ?_
    · exact hperm.mem_iff.mpr (List.mem_cons_of_mem _ hspace)
    · rcases List.mem_cons.mp (hperm.mem_iff.mp hspace) with rfl | hspace
      · exact ⟨outer, houter, hcovers⟩
      · exact CoveredBy.of_subset (List.Subset.refl _) space hspace

end Filter

/-! ## One filter, written in three ways -/

/-- A namespace of advertisements among the system libraries, one inside of it among the
    others. -/
def scatteredFilter : Filter := ⟨⟨["com.app.ads."]⟩, ⟨["com.app.ads.video", "okhttp3"]⟩, .segment⟩

/-- All of them among the others, one twice. -/
def gatheredFilter : Filter :=
  ⟨.empty, ⟨["okhttp3", "com.app.ads.video", "com.app.ads.", "okhttp3"]⟩, .segment⟩

/-- The same without the inner one. -/
def prunedFilter : Filter := ⟨.empty, ⟨["okhttp3", "com.app.ads."]⟩, .segment⟩

/-- Classes inside and outside of these namespaces. -/
def bundledClasses : List ClassRecord :=
  [⟨"com.app.Main", ""⟩, ⟨"com.app.ads.video.Player", ""⟩, ⟨"com.app.adsense.Own", ""⟩]

/-- What the three filters leave of the classes is the same. -/
theorem Filter.apply_classes_of_spaces_scattered :
    (∀ space, space ∈ gatheredFilter.spaces ↔ space ∈ scatteredFilter.spaces) ∧
      scatteredFilter.spaces.Perm ("com.app.ads.video" :: prunedFilter.spaces) ∧
      "com.app.ads." ∈ prunedFilter.spaces ∧
      Mode.segment.covers "com.app.ads.video" "com.app.ads." = true ∧
      (gatheredFilter.apply bundledClasses (some "com.app")).classes =
        (scatteredFilter.apply bundledClasses (some "com.app")).classes ∧
      (prunedFilter.apply bundledClasses (some "com.app")).classes =
        (scatteredFilter.apply bundledClasses (some "com.app")).classes := by
  have hback : gatheredFilter.spaces ⊆ scatteredFilter.spaces := by decide +kernel
  have hforth : scatteredFilter.spaces ⊆ gatheredFilter.spaces := by decide +kernel
  have hsame : ∀ space, space ∈ gatheredFilter.spaces ↔ space ∈ scatteredFilter.spaces :=
    fun space => ⟨fun h => hback h, fun h => hforth h⟩
  have hperm : scatteredFilter.spaces.Perm ("com.app.ads.video" :: prunedFilter.spaces) := by
    decide +kernel
  have houter : "com.app.ads." ∈ prunedFilter.spaces := by decide +kernel
  have hcovers : Mode.segment.covers "com.app.ads.video" "com.app.ads." = true := by
    decide +kernel
  obtain ⟨-, hgathered, -⟩ := @Filter.apply_classes_of_spaces scatteredFilter gatheredFilter rfl
    bundledClasses (some "com.app")
  obtain ⟨-, -, hpruned⟩ := @Filter.apply_classes_of_spaces scatteredFilter prunedFilter rfl
    bundledClasses (some "com.app")
  exact ⟨hsame, hperm, houter, hcovers, hgathered hsame, hpruned _ _ hperm houter hcovers⟩

end SmaliSieve.Namespace
