/-
  SmaliSieve.Proofs.Smali.Grouping

  What aggregation does with its files, said without its intermediate lists.

  `membersOf internal files` are the files that declare one class, by file name and path;
  `internalNames files` are the declared names, each once. The class list is a sorted
  permutation of one record for each of these names (`aggregate_perm`,
  `aggregate_sorted`), and the record of a name depends on the members of that name only
  (`recordOf_declarations`). A test of class names may therefore be applied to the records
  or, before anything is grouped, to the files (`filter_aggregate`).
-/

import SmaliSieve.Proofs.Smali.Groups

namespace SmaliSieve

/-! ## The orders -/

instance : Std.TransCmp Component.order :=
  inferInstanceAs (Std.TransCmp (compareLex (compareOn Component.rank) (compareOn Component.label)))

instance : Std.TransCmp Path.order :=
  Order.transCmp_on (List.compareLex Component.order) Path.components

namespace Smali

instance : Std.TransCmp SourceFile.order :=
  have := Order.transCmp_on Path.order SourceFile.path
  inferInstanceAs (Std.TransCmp
    (compareLex (compareOn SourceFile.fileName) fun a b => Path.order a.path b.path))

instance : Std.TransCmp ClassRecord.order :=
  inferInstanceAs (Std.TransCmp (compareOn ClassRecord.className))

/-- The order of records is the order of their names. -/
theorem ClassRecord.isLE_order {a b : ClassRecord} :
    (ClassRecord.order a b).isLE = true ↔ a.className ≤ b.className := by
  show (compareOfLessAndEq a.className b.className).isLE = true ↔ _
  exact isLE_compareOfLessAndEq String.le_antisymm String.not_le String.le_total

/-! ## Files in order -/

theorem sortFiles_perm (files : List SourceFile) : (sortFiles files).Perm files :=
  List.mergeSort_perm files _

theorem sortFiles_pairwise (files : List SourceFile) :
    (sortFiles files).Pairwise fun a b => (SourceFile.order a b).isLE :=
  Order.mergeSort_pairwise SourceFile.order files

theorem sortFiles_filter (p : SourceFile → Bool) (files : List SourceFile) :
    (sortFiles files).filter p = sortFiles (files.filter p) :=
  Order.filter_mergeSort (Order.isLE_transitive _) (Order.isLE_total _) p files

/-- The file declares the class with this internal name. -/
def SourceFile.declares (internal : String) (file : SourceFile) : Bool :=
  declaredName? file.content = some internal

@[simp] theorem SourceFile.declares_iff {internal : String} {file : SourceFile} :
    file.declares internal = true ↔ declaredName? file.content = some internal := by
  simp [declares]

/-- The files that declare `internal`, by file name and path. -/
def membersOf (internal : String) (files : List SourceFile) : List SourceFile :=
  (sortFiles files).filter (·.declares internal)

theorem membersOf_perm (internal : String) (files : List SourceFile) :
    (membersOf internal files).Perm (files.filter (·.declares internal)) :=
  (sortFiles_perm files).filter _

theorem membersOf_pairwise (internal : String) (files : List SourceFile) :
    (membersOf internal files).Pairwise fun a b => (SourceFile.order a b).isLE :=
  (sortFiles_pairwise files).filter _

theorem mem_membersOf {internal : String} {files : List SourceFile} {file : SourceFile} :
    file ∈ membersOf internal files ↔
      file ∈ files ∧ declaredName? file.content = some internal := by
  rw [(membersOf_perm internal files).mem_iff, List.mem_filter, SourceFile.declares_iff]

/-! ## Declared names -/

/-- The internal names that `files` declare, each once, in the order of first
    declaration. -/
def internalNames (files : List SourceFile) : List String :=
  ((sortFiles files).filterMap fun file => declaredName? file.content).eraseDups

theorem nodup_internalNames (files : List SourceFile) : (internalNames files).Nodup :=
  Order.nodup_eraseDups _

theorem mem_internalNames {internal : String} {files : List SourceFile} :
    internal ∈ internalNames files ↔
      ∃ file ∈ files, declaredName? file.content = some internal := by
  rw [internalNames, List.mem_eraseDups, List.mem_filterMap]
  simp only [(sortFiles_perm files).mem_iff]

theorem declarations_internal (files : List SourceFile) :
    (declarations files).map (·.internal) =
      (sortFiles files).filterMap fun file => declaredName? file.content := by
  rw [declarations, List.map_filterMap]
  congr 1
  funext file
  cases h : declaredName? file.content <;> simp [declarationOf?, h]

theorem contentsOf_declarations (internal : String) (files : List SourceFile) :
    contentsOf internal (declarations files) =
      (membersOf internal files).map (·.content) := by
  rw [contentsOf, declarations, membersOf]
  -- file by file: one without a class and one of another class are dropped on both sides
  induction sortFiles files with
  | nil => rfl
  | cons file rest ih =>
    cases h : declaredName? file.content with
    | none => simpa [declarationOf?, h, SourceFile.declares] using ih
    | some name =>
      by_cases hname : name = internal
      · simpa [declarationOf?, h, SourceFile.declares, hname] using ih
      · simpa [declarationOf?, h, SourceFile.declares, hname] using ih

/-- The record of a class depends on the files that declare it only. -/
theorem recordOf_declarations (internal : String) (files : List SourceFile) :
    recordOf (declarations files) internal =
      ⟨canonicalName internal, joinContents ((membersOf internal files).map (·.content))⟩ := by
  rw [recordOf, contentsOf_declarations]

/-! ## Classes of one file -/

/-- A class that one file declares has the text of that file. -/
theorem recordOf_of_unique {files : List SourceFile} {file : SourceFile} {internal : String}
    (hnodup : files.Nodup) (hmem : file ∈ files)
    (hname : declaredName? file.content = some internal)
    (honly : ∀ other ∈ files, declaredName? other.content = some internal → other = file) :
    recordOf (declarations files) internal = ⟨canonicalName internal, file.content⟩ := by
  have hmembers : membersOf internal files = [file] := by
    have hnodup' : (membersOf internal files).Nodup :=
      (membersOf_perm internal files).nodup_iff.mpr (hnodup.filter _)
    have hall : ∀ other, other ∈ membersOf internal files ↔ other ∈ [file] := by
      intro other
      rw [mem_membersOf, List.mem_singleton]
      constructor
      · rintro ⟨hother, hdeclares⟩
        exact honly other hother hdeclares
      · rintro rfl
        exact ⟨hmem, hname⟩
    exact List.perm_singleton.mp ((List.perm_ext_iff_of_nodup hnodup' (by simp)).mpr hall)
  rw [recordOf_declarations, hmembers, List.map_singleton, joinContents_singleton]

/-! ## The class list -/

theorem groupRecords_declarations (files : List SourceFile) :
    groupRecords (declarations files) =
      (internalNames files).map (recordOf (declarations files)) := by
  rw [groupRecords, declarations_internal, internalNames]

/-- There is one record for each declared name, and none besides. -/
theorem aggregate_perm (files : List SourceFile) :
    (aggregate files).Perm ((internalNames files).map (recordOf (declarations files))) := by
  rw [aggregate_eq, groupRecords_declarations]
  exact List.mergeSort_perm _ _

theorem mem_aggregate {record : ClassRecord} {files : List SourceFile} :
    record ∈ aggregate files ↔
      ∃ internal ∈ internalNames files, recordOf (declarations files) internal = record := by
  rw [(aggregate_perm files).mem_iff, List.mem_map]

/-- The class list is sorted by class name. -/
theorem aggregate_sorted (files : List SourceFile) :
    ((aggregate files).map (·.className)).Pairwise (· ≤ ·) := by
  rw [List.pairwise_map]
  exact (Order.mergeSort_pairwise ClassRecord.order _).imp ClassRecord.isLE_order.mp

theorem aggregate_nil : aggregate [] = [] := by
  have hnames : internalNames [] = [] := by simp [internalNames, sortFiles]
  rw [← List.perm_nil]
  simpa [hnames] using aggregate_perm []

/-! ## A test of names, before and after grouping -/

/-- The file declares a class whose dotted name passes `keep`. -/
def SourceFile.passes (keep : String → Bool) (file : SourceFile) : Bool :=
  (declaredName? file.content).any fun internal => keep (canonicalName internal)

/-- Files whose class does not pass are no members of a class that does. -/
theorem membersOf_filter {keep : String → Bool} {internal : String}
    (h : keep (canonicalName internal) = true) (files : List SourceFile) :
    membersOf internal (files.filter (·.passes keep)) = membersOf internal files := by
  rw [membersOf, ← sortFiles_filter, List.filter_filter, membersOf]
  -- a file that declares `internal` passes, so the second test drops no member
  apply List.filter_congr
  intro file _
  by_cases hname : declaredName? file.content = some internal
  · simp [SourceFile.declares, SourceFile.passes, hname, h]
  · simp [SourceFile.declares, hname]

theorem internalNames_filter (keep : String → Bool) (files : List SourceFile) :
    internalNames (files.filter (·.passes keep)) =
      (internalNames files).filter fun internal => keep (canonicalName internal) := by
  rw [internalNames, ← sortFiles_filter, internalNames, Order.filter_eraseDups]
  -- before repetitions are dropped, each file stands for its own name
  congr 1
  induction sortFiles files with
  | nil => rfl
  | cons file rest ih =>
    cases h : declaredName? file.content with
    | none => simpa [SourceFile.passes, h] using ih
    | some internal =>
      by_cases hkeep : keep (canonicalName internal) = true
      · simpa [SourceFile.passes, h, hkeep] using ih
      · simpa [SourceFile.passes, h, hkeep] using ih

/-- Dropping classes by name from the class list is the same as dropping the files that
    declare them beforehand. -/
theorem filter_aggregate (keep : String → Bool) (files : List SourceFile) :
    (aggregate files).filter (fun record => keep record.className) =
      aggregate (files.filter (·.passes keep)) := by
  -- the filter goes past the sorting by name, and then past the grouping
  have hsort := Order.filter_mergeSort (Order.isLE_transitive ClassRecord.order)
    (Order.isLE_total ClassRecord.order) (fun record => keep record.className)
    (groupRecords (declarations files))
  have hgroup : (groupRecords (declarations files)).filter (fun record => keep record.className) =
      groupRecords (declarations (files.filter (·.passes keep))) := by
    rw [groupRecords_declarations, groupRecords_declarations, internalNames_filter, List.filter_map]
    apply List.map_congr_left
    intro internal hmem
    have hkeep : keep (canonicalName internal) = true := (List.mem_filter.mp hmem).2
    rw [recordOf_declarations, recordOf_declarations, membersOf_filter hkeep]
  rw [aggregate_eq, hsort, hgroup, aggregate_eq]

end Smali

end SmaliSieve
