/-
  SmaliSieve.Proofs.Smali.Reaggregation

  A class list that is aggregated again.

  `Settled` says when aggregation has nothing left to do: the records are sorted, each one
  declares in its own text the class that it is named after, and no two declare the same. Such
  a list comes back as it is, record by record (`Settled.aggregate_asFile`). A class list is
  settled where the names in its files are ended by semicolons (`settled_aggregate`): the text
  of a record begins with a file that declares the class, and the files behind that one
  cannot change what it declares.
-/

import SmaliSieve.Proofs.Smali.Grouping
import SmaliSieve.Proofs.Smali.Terminated

namespace SmaliSieve.Smali

/-- The record as a file that is called after the class. -/
def ClassRecord.asFile (path : Path) (record : ClassRecord) : SourceFile :=
  ⟨record.className, record.content, path⟩

/-! ## Lists that come back -/

/-- The records ascend by name, each one declares the class that it is named after, and no two
    of them declare the same class. -/
structure Settled (records : List ClassRecord) : Prop where
  ascending : records.Pairwise fun a b => a.className ≤ b.className
  named : ∀ record ∈ records, ∃ internal,
    declaredName? record.content = some internal ∧ record.className = canonicalName internal
  apart : records.Pairwise fun a b => declaredName? a.content ≠ declaredName? b.content

section Settled

variable (path : Path) {records : List ClassRecord}

/-- Files with one path are ordered by their names alone. -/
theorem isLE_order_asFile {a b : ClassRecord} (h : a.className ≤ b.className) :
    (SourceFile.order (a.asFile path) (b.asFile path)).isLE := by
  have hname : (ClassRecord.order a b).isLE := ClassRecord.isLE_order.mpr h
  have hpath : Path.order path path = .eq := Std.ReflCmp.compare_self
  show ((ClassRecord.order a b).then (Path.order path path)).isLE = true
  rw [hpath, Ordering.then_eq]
  exact hname

theorem Settled.sortFiles_eq (h : Settled records) :
    sortFiles (records.map (·.asFile path)) = records.map (·.asFile path) := by
  apply List.mergeSort_of_pairwise
  rw [List.pairwise_map]
  exact h.ascending.imp (isLE_order_asFile path)

theorem Settled.internalNames_eq (h : Settled records) :
    internalNames (records.map (·.asFile path)) =
      records.filterMap fun record => declaredName? record.content := by
  have hnodup : (records.filterMap fun record => declaredName? record.content).Nodup := by
    rw [List.Nodup, List.pairwise_filterMap]
    refine h.apart.imp fun {a b} hne internal hinternal other hother hsame => hne ?_
    rw [hinternal, hother, hsame]
  have hnames : (records.map (·.asFile path)).filterMap (fun file => declaredName? file.content) =
      records.filterMap fun record => declaredName? record.content := List.filterMap_map
  rw [internalNames, h.sortFiles_eq, hnames, Order.eraseDups_of_nodup hnodup]

/-- Each record is found again from the one file that declares its class. -/
theorem Settled.recordOf_eq (h : Settled records) {record : ClassRecord} (hmem : record ∈ records)
    {internal : String} (hname : declaredName? record.content = some internal) :
    recordOf (declarations (records.map (·.asFile path))) internal = record := by
  have hsymm : Std.Symm fun a b : ClassRecord =>
      declaredName? a.content ≠ declaredName? b.content := ⟨fun _ _ hne => Ne.symm hne⟩
  have hnodup : (records.map (·.asFile path)).Nodup := by
    rw [List.Nodup, List.pairwise_map]
    refine h.apart.imp fun {a b} hne hsame => hne ?_
    have hcontent : a.content = b.content := congrArg SourceFile.content hsame
    rw [hcontent]
  have honly : ∀ file ∈ records.map (·.asFile path), declaredName? file.content = some internal →
      file = record.asFile path := by
    intro file hfile hdeclares
    obtain ⟨other, hother, rfl⟩ := List.mem_map.mp hfile
    by_contra hne
    have hrecords : other ≠ record := fun hsame => hne (congrArg (·.asFile path) hsame)
    exact h.apart.forall hother hmem hrecords (hdeclares.trans hname.symm)
  obtain ⟨internal', hname', hclass⟩ := h.named record hmem
  obtain rfl : internal = internal' := Option.some.inj (hname.symm.trans hname')
  rw [recordOf_of_unique hnodup (List.mem_map_of_mem hmem) hname honly, ← hclass]
  rfl

/-- Aggregation gives a settled list back. -/
theorem Settled.aggregate_asFile (h : Settled records) :
    aggregate (records.map (·.asFile path)) = records := by
  have hrecords : (internalNames (records.map (·.asFile path))).map
      (recordOf (declarations (records.map (·.asFile path)))) = records := by
    rw [h.internalNames_eq, List.map_filterMap]
    have hsome : ∀ record ∈ records, (declaredName? record.content).map
        (recordOf (declarations (records.map (·.asFile path)))) = some record := by
      intro record hmem
      obtain ⟨internal, hname, -⟩ := h.named record hmem
      rw [hname, Option.map_some, h.recordOf_eq path hmem hname]
    rw [List.filterMap_congr hsome, List.filterMap_some]
  rw [aggregate_eq, groupRecords_declarations, hrecords]
  exact List.mergeSort_of_pairwise (h.ascending.imp ClassRecord.isLE_order.mpr)

end Settled

/-! ## Class lists -/

theorem exists_joinContents_cons (content : String) (more : List String) :
    ∃ rest, joinContents (content :: more) = content ++ rest := by
  cases more with
  | nil => exact ⟨"", by rw [joinContents_singleton, String.append_empty]⟩
  | cons next more =>
    exact ⟨"\n" ++ joinContents (next :: more), by rw [joinContents_cons, String.append_assoc]⟩

variable {files : List SourceFile}

/-- The text of a class declares the class: it begins with a file that does, and a semicolon in
    that file ends the name. -/
theorem declaredName?_recordOf (terminated : ∀ file ∈ files, Terminated file.content.toList)
    {internal : String} (hmem : internal ∈ internalNames files) :
    declaredName? (recordOf (declarations files) internal).content = some internal := by
  rw [recordOf_declarations]
  cases hmembers : membersOf internal files with
  | nil =>
    obtain ⟨file, hfile, hname⟩ := mem_internalNames.mp hmem
    have hmember : file ∈ membersOf internal files := mem_membersOf.mpr ⟨hfile, hname⟩
    rw [hmembers] at hmember
    cases hmember
  | cons file more =>
    obtain ⟨hfile, hname⟩ : file ∈ files ∧ declaredName? file.content = some internal := by
      rw [← mem_membersOf, hmembers]
      exact List.mem_cons_self
    obtain ⟨rest, hrest⟩ := exists_joinContents_cons file.content (more.map (·.content))
    rw [List.map_cons, hrest]
    exact declaredName?_append (terminated file hfile) hname rest

theorem settled_aggregate (terminated : ∀ file ∈ files, Terminated file.content.toList) :
    Settled (aggregate files) where
  ascending := List.pairwise_map.mp (aggregate_sorted files)
  named := by
    intro record hrecord
    obtain ⟨internal, hmem, rfl⟩ := mem_aggregate.mp hrecord
    exact ⟨internal, declaredName?_recordOf terminated hmem, rfl⟩
  apart := by
    rw [(aggregate_perm files).pairwise_iff Ne.symm, List.pairwise_map]
    -- the records declare the names that they were made for, and these are all different
    refine (nodup_internalNames files).imp_of_mem fun {a b} ha hb hne => ?_
    rw [declaredName?_recordOf terminated ha, declaredName?_recordOf terminated hb]
    exact fun hsame => hne (Option.some.inj hsame)

/-- If a semicolon ends the name in each file that declares a class, the class list is what its
    own records give when they are aggregated as files, in this order, all with one path. -/
theorem aggregate_asFile_aggregate (path : Path)
    (terminated : ∀ file ∈ files, Terminated file.content.toList) :
    aggregate ((aggregate files).map (·.asFile path)) = aggregate files :=
  (settled_aggregate terminated).aggregate_asFile path

/-- Two classes with one class name, and a class in two files, the first of which has a keyword
    without a name in front and one behind. -/
def repeatedClasses : List SourceFile :=
  [⟨"C.smali", ".class La.b;", .ofString "C.smali"⟩,
   ⟨"B.smali", ".class public La/b;\n.method é()V", .ofString "B.smali"⟩,
   ⟨"A.smali", "# .class\n.class La/b; .class", .ofString "A.smali"⟩,
   ⟨"README", ".class", .ofString "README"⟩]

theorem aggregate_asFile_aggregate_repeatedClasses :
    (∀ file ∈ repeatedClasses, Terminated file.content.toList) ∧
      aggregate ((aggregate repeatedClasses).map (·.asFile (.ofString ""))) =
        aggregate repeatedClasses := by
  have terminated : ∀ file ∈ repeatedClasses, Terminated file.content.toList := by decide +kernel
  exact ⟨terminated, aggregate_asFile_aggregate (.ofString "") terminated⟩

end SmaliSieve.Smali
