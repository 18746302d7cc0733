/-
  SmaliSieve.Proofs.Smali.Conservation

  Aggregation followed by extraction keeps every method.

  A file has methods of its own: the blocks of its text, as methods of the class that it
  declares. Files that leave no block open can be joined without touching their blocks, so
  the methods of a class are those of its members, one member after the other
  (`methodsOf_recordOf`), and since each declaring file is a member of exactly one class,
  the methods of all classes are those of all files (`methodsOfAll_aggregate_perm`).
-/

import Mathlib.Data.List.Perm.Basic
import SmaliSieve.Proofs.Smali.Extraction
import SmaliSieve.Proofs.Smali.Grouping

namespace SmaliSieve.Smali

/-- Scanned by itself, the file leaves no method block open at its end. -/
def SourceFile.Closed (file : SourceFile) : Prop :=
  (scan file.content.toList).2 = .outside

instance (file : SourceFile) : Decidable file.Closed :=
  inferInstanceAs (Decidable ((scan file.content.toList).2 = .outside))

/-- The method blocks of the file by itself, as methods of the class that it declares. -/
def SourceFile.ownMethods (file : SourceFile) : List MethodRecord :=
  match declaredName? file.content with
  | none => []
  | some internal => (methodBlocks file.content).map (recordOfBlock (canonicalName internal))

theorem SourceFile.ownMethods_of_declares {file : SourceFile} {internal : String}
    (h : declaredName? file.content = some internal) :
    file.ownMethods = (methodBlocks file.content).map (recordOfBlock (canonicalName internal)) := by
  rw [ownMethods, h]

/-! ## One class -/

theorem methodBlocks_joinContents {contents : List String}
    (h : ∀ content ∈ contents, (scan content.toList).2 = .outside) :
    methodBlocks (joinContents contents) = contents.flatMap methodBlocks := by
  have hjoin : blocksIn (Text.joinWith ['\n'] (contents.map String.toList)) =
      (contents.map String.toList).flatMap blocksIn := by
    apply blocksIn_joinWith
    intro text hmem
    obtain ⟨content, hcontent, rfl⟩ := List.mem_map.mp hmem
    exact h content hcontent
  rw [methodBlocks, joinContents, String.toList_ofList, hjoin, List.flatMap_map,
    List.map_flatMap]
  rfl

/-- The methods of a class are those of its members, in the order of the members. -/
theorem methodsOf_recordOf {files : List SourceFile}
    (closed : ∀ file ∈ files, (declaredName? file.content).isSome → file.Closed)
    (internal : String) :
    methodsOf (recordOf (declarations files) internal) =
      (membersOf internal files).flatMap SourceFile.ownMethods := by
  have hclosed : ∀ content ∈ (membersOf internal files).map (·.content),
      (scan content.toList).2 = .outside := by
    intro content hmem
    obtain ⟨file, hfile, rfl⟩ := List.mem_map.mp hmem
    obtain ⟨hin, hname⟩ := mem_membersOf.mp hfile
    exact closed file hin (by simp [hname])
  rw [recordOf_declarations, methodsOf_eq_map, methodBlocks_joinContents hclosed,
    List.flatMap_map, List.map_flatMap]
  apply List.flatMap_congr
  intro file hfile
  exact (SourceFile.ownMethods_of_declares (mem_membersOf.mp hfile).2).symm

/-! ## All classes -/

/-- The members of all classes are the files that declare a class. -/
theorem members_perm (files : List SourceFile) :
    ((internalNames files).flatMap fun internal => membersOf internal files).Perm
      (files.filter fun file => (declaredName? file.content).isSome) := by
  -- every declared name is one of `internalNames`, so no file with a class is left out
  have hgroups := Order.groups_perm (fun file : SourceFile => declaredName? file.content)
    (nodup_internalNames files) (sortFiles files)
  have hall : (sortFiles files).filter
        (fun file => (declaredName? file.content).any (· ∈ internalNames files)) =
      (sortFiles files).filter fun file => (declaredName? file.content).isSome := by
    apply List.filter_congr
    intro file hfile
    cases hname : declaredName? file.content with
    | none => rfl
    | some internal =>
      have hmem : internal ∈ internalNames files :=
        mem_internalNames.mpr ⟨file, (sortFiles_perm files).mem_iff.mp hfile, hname⟩
      simp [hmem]
  rw [hall] at hgroups
  exact hgroups.trans ((sortFiles_perm files).filter _)

/-- A file without a class has no methods of its own. -/
theorem flatMap_ownMethods_filter (files : List SourceFile) :
    (files.filter fun file => (declaredName? file.content).isSome).flatMap
      SourceFile.ownMethods = files.flatMap SourceFile.ownMethods := by
  induction files with
  | nil => rfl
  | cons file files ih =>
    cases hname : declaredName? file.content with
    | none =>
      rw [List.filter_cons_of_neg (by simp [hname]), ih, List.flatMap_cons,
        SourceFile.ownMethods, hname, List.nil_append]
    | some internal =>
      rw [List.filter_cons_of_pos (by simp [hname]), List.flatMap_cons, ih, List.flatMap_cons]

/-- No method is lost, doubled, merged with another or given to another class. -/
theorem methodsOfAll_aggregate_perm {files : List SourceFile}
    (closed : ∀ file ∈ files, (declaredName? file.content).isSome → file.Closed) :
    (methodsOfAll (aggregate files)).Perm (files.flatMap SourceFile.ownMethods) := by
  -- from records to the members of each, and from members to files
  have hrecords := (aggregate_perm files).flatMap_right methodsOf
  rw [List.flatMap_map, List.flatMap_congr fun internal _ => methodsOf_recordOf closed internal,
    ← List.flatMap_assoc] at hrecords
  have hfiles := (members_perm files).flatMap_right SourceFile.ownMethods
  rw [flatMap_ownMethods_filter] at hfiles
  exact hrecords.trans hfiles

/-- If no file with a class leaves a method block open at its end, the methods of the class
    list are, up to order, the methods that the files have by themselves. The order is
    class by class, in a class by file name and path, and in a file that of the text. -/
theorem extractMethods_aggregate (parallel : Bool) (files : List SourceFile)
    (closed : ∀ file ∈ files, (declaredName? file.content).isSome → file.Closed) :
    (extractMethods parallel (aggregate files)).Perm (files.flatMap SourceFile.ownMethods) ∧
      extractMethods parallel (aggregate files) = (aggregate files).flatMap methodsOf ∧
      ∀ record ∈ aggregate files, ∃ internal members,
        record.className = canonicalName internal ∧
        members ≠ [] ∧
        members.Perm (files.filter (·.declares internal)) ∧
        (members.Pairwise fun a b => (SourceFile.order a b).isLE) ∧
        methodsOf record = members.flatMap SourceFile.ownMethods := by
  rw [extractMethods_eq]
  refine ⟨methodsOfAll_aggregate_perm closed, rfl, ?_⟩
  intro record hrecord
  obtain ⟨internal, hinternal, rfl⟩ := mem_aggregate.mp hrecord
  obtain ⟨file, hfile, hname⟩ := mem_internalNames.mp hinternal
  refine ⟨internal, membersOf internal files, rfl, ?_, membersOf_perm internal files,
    membersOf_pairwise internal files, methodsOf_recordOf closed internal⟩
  exact List.ne_nil_of_mem (mem_membersOf.mpr ⟨hfile, hname⟩)

/-- A class in two files, and a file without a class that leaves a block open. -/
def splitClass : List SourceFile :=
  [⟨"B.smali", ".class Lx/Shared;\n.method b()V\n.end method # b", .ofString "smali/B.smali"⟩,
   ⟨"A.smali", ".class Lx/Shared;\n# é\n.method a()V\n.end method\n", .ofString "smali/A.smali"⟩,
   ⟨"C.txt", ".method c()V\n", .ofString "smali/C.txt"⟩]

/-- Both methods of the class are found, and nothing else. -/
theorem extractMethods_aggregate_splitClass :
    (∀ file ∈ splitClass, (declaredName? file.content).isSome → file.Closed) ∧
      (extractMethods true (aggregate splitClass)).Perm
        [⟨"x.Shared", ".method b()V", ".method b()V\n.end method"⟩,
         ⟨"x.Shared", ".method a()V", ".method a()V\n.end method"⟩] := by
  have closed : ∀ file ∈ splitClass, (declaredName? file.content).isSome → file.Closed := by
    decide +kernel
  have hown : splitClass.flatMap SourceFile.ownMethods =
      [⟨"x.Shared", ".method b()V", ".method b()V\n.end method"⟩,
       ⟨"x.Shared", ".method a()V", ".method a()V\n.end method"⟩] := by
    decide +kernel
  have hperm := (extractMethods_aggregate true splitClass closed).1
  rw [hown] at hperm
  exact ⟨closed, hperm⟩

end SmaliSieve.Smali
