/-
  SmaliSieve.Proofs.Smali.ClassList

  What the class list is, class by class.

  Two stable sorts decide the order. Files are sorted by name and path before they are
  grouped, so a class has the files that declare it in that order; the declared names come out
  of the grouping in the order of their first files, and sorting the records by class name
  leaves those in this order whose class names agree. `classNames` are the declared names as
  the class list has them, and `aggregate_recordPerName` says all there is to say about it.
-/

import SmaliSieve.Proofs.Smali.Grouping

namespace SmaliSieve.Smali

/-! ## Names in the order of the class list -/

/-- The internal names that `files` declare, in the order of the class list. -/
def classNames (files : List SourceFile) : List String :=
  (internalNames files).mergeSort fun a b => (compareOn canonicalName a b).isLE

/-- Sorting the records by class name is sorting the names of which they are the records. -/
theorem aggregate_eq_map (files : List SourceFile) :
    aggregate files = (classNames files).map (recordOf (declarations files)) := by
  rw [aggregate_eq, groupRecords_declarations, classNames, List.map_mergeSort]
  exact fun a _ b _ => rfl

theorem classNames_perm (files : List SourceFile) : (classNames files).Perm (internalNames files) :=
  List.mergeSort_perm _ _

theorem nodup_classNames (files : List SourceFile) : (classNames files).Nodup :=
  (classNames_perm files).nodup_iff.mpr (nodup_internalNames files)

theorem mem_classNames {internal : String} {files : List SourceFile} :
    internal ∈ classNames files ↔ ∃ file ∈ files, declaredName? file.content = some internal := by
  rw [(classNames_perm files).mem_iff, mem_internalNames]

/-! ## First files -/

/-- The place in the sorted files of the first one that declares the class. -/
def firstPlace (internal : String) (files : List SourceFile) : Nat :=
  (sortFiles files).findIdx (·.declares internal)

/-- The names are found in the order of their first files. -/
theorem internalNames_pairwise (files : List SourceFile) :
    (internalNames files).Pairwise fun a b => firstPlace a files < firstPlace b files := by
  have hfirst := Order.eraseDups_pairwise_findIdx
    (fun file : SourceFile => declaredName? file.content) (sortFiles files)
  rw [← internalNames] at hfirst
  exact hfirst

theorem compare_eq_lt_iff {a b : String} : compare a b = .lt ↔ a < b :=
  compareOfLessAndEq_eq_lt

/-- The class list ascends by class name, and classes of one name stand in the order of their
    first files. -/
theorem classNames_pairwise (files : List SourceFile) :
    (classNames files).Pairwise fun a b =>
      canonicalName a < canonicalName b ∨
        canonicalName a = canonicalName b ∧ firstPlace a files < firstPlace b files := by
  have hsorted : Order.StablySorted (compareOn canonicalName) (internalNames files)
      (classNames files) := Order.stablySorted_mergeSort _
  apply (hsorted.pairwise (internalNames_pairwise files)).imp
  rintro a b (hlt | ⟨htie, hplace⟩)
  · exact .inl (compare_eq_lt_iff.mp hlt)
  · exact .inr ⟨Std.LawfulEqCmp.eq_of_compare htie, hplace⟩

/-! ## The class list -/

theorem stablySorted_sortFiles (files : List SourceFile) :
    Order.StablySorted SourceFile.order files (sortFiles files) :=
  Order.stablySorted_mergeSort files

/-- There is one record for each internal name that some file declares, and no other one. The
    record has the dotted name, and as its content the contents of all files that declare the
    name, by file name and path, with line feeds between them; files that agree on both keep
    their order. The records are sorted by class name, and those that agree on it stand in the
    order of their first files. -/
theorem aggregate_recordPerName (files : List SourceFile) :
    Order.StablySorted SourceFile.order files (sortFiles files) ∧
      (∀ internal, Order.StablySorted SourceFile.order (files.filter (·.declares internal))
        (membersOf internal files)) ∧
      ∃ names : List String,
        names.Nodup ∧
        (∀ internal, internal ∈ names ↔
          ∃ file ∈ files, declaredName? file.content = some internal) ∧
        aggregate files = names.map (fun internal =>
          ⟨canonicalName internal, joinContents ((membersOf internal files).map (·.content))⟩) ∧
        names.Pairwise fun a b =>
          canonicalName a < canonicalName b ∨
            canonicalName a = canonicalName b ∧ firstPlace a files < firstPlace b files := by
  refine ⟨stablySorted_sortFiles files, fun internal => (stablySorted_sortFiles files).filter _,
    classNames files, nodup_classNames files, fun internal => mem_classNames, ?_,
    classNames_pairwise files⟩
  rw [aggregate_eq_map]
  exact List.map_congr_left fun internal _ => recordOf_declarations internal files

end SmaliSieve.Smali
