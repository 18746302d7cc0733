/-
  SmaliSieve.Proofs.Smali.Extraction

  From blocks to method records. A block has the shape that `blocksIn_shape` gives it, so
  trimming leaves it alone and it always has a first line: each block becomes exactly one
  record, which holds the block as it is (`methodsOf_eq_map`). Methods carry the name of
  their class, so leaving classes out can be done before or after (`methodsOfAll_filter`).
  How the class list is split for parallel work does not show (`extractMethods_eq`).
-/

import Mathlib.Data.List.Basic
import SmaliSieve.Proofs.Smali.LineScan
import SmaliSieve.Smali.Method

namespace SmaliSieve.Smali

/-! ## One record for each block -/

/-- A block as the method of a class: the signature is its first line, trimmed, and the
    content is the block itself. -/
def recordOfBlock (className : String) (block : String) : MethodRecord :=
  ⟨className, String.ofList (Text.trim (block.toList.takeWhile (· ≠ '\n'))), block⟩

/-- A block stands between its markers without white space around them. -/
theorem trim_block {content block : List Char} (h : block ∈ blocksIn content) :
    Text.trim block = block := by
  obtain ⟨text, ⟨tail, rfl⟩, rfl⟩ := blocksIn_shape h
  have hlast : ((openingMarker ++ tail) ++ '\n' :: closingMarker).getLast? = some 'd' := by
    rw [List.getLast?_append_of_ne_nil _ (List.cons_ne_nil _ _)]
    decide
  exact Text.trim_eq_self rfl hlast (by decide) (by decide)

/-- Each block gives a record, and none is dropped. -/
theorem methodOfBlock?_eq_some {content block : List Char} (h : block ∈ blocksIn content)
    (className : String) :
    methodOfBlock? className block = some (recordOfBlock className (String.ofList block)) := by
  obtain ⟨text, -, hblock⟩ := blocksIn_shape h
  rw [methodOfBlock?, trim_block h, hblock, Text.head?_lines, Option.map_some,
    Text.trim_dropReturn, recordOfBlock, String.toList_ofList]

/-- The methods of a class are its blocks, one by one and in their order. -/
theorem methodsOf_eq_map (record : ClassRecord) :
    methodsOf record = (methodBlocks record.content).map (recordOfBlock record.className) := by
  rw [methodsOf, methodBlocks, List.map_map]
  exact List.filterMap_eq_map_iff_forall_eq_some.mpr fun block hmem =>
    methodOfBlock?_eq_some hmem record.className

theorem className_of_mem_methodsOf {record : ClassRecord} {method : MethodRecord}
    (h : method ∈ methodsOf record) : method.className = record.className := by
  rw [methodsOf_eq_map] at h
  obtain ⟨block, -, rfl⟩ := List.mem_map.mp h
  rfl

/-! ## Leaving classes out -/

/-- A test of class names lets all methods of a class through, or none. -/
theorem methodsOf_filter (keep : String → Bool) (record : ClassRecord) :
    (methodsOf record).filter (fun method => keep method.className) =
      if keep record.className then methodsOf record else [] := by
  split
  · next hkeep =>
    rw [List.filter_eq_self]
    intro method hmem
    rw [className_of_mem_methodsOf hmem, hkeep]
  · next hkeep =>
    rw [List.filter_eq_nil_iff]
    intro method hmem
    rwa [className_of_mem_methodsOf hmem]

/-- The methods of the classes that are kept are those methods whose class is kept. -/
theorem methodsOfAll_filter (keep : String → Bool) (records : List ClassRecord) :
    methodsOfAll (records.filter fun record => keep record.className) =
      (methodsOfAll records).filter fun method => keep method.className := by
  rw [methodsOfAll, methodsOfAll, List.filter_flatMap]
  induction records with
  | nil => rfl
  | cons record records ih =>
    rw [List.flatMap_cons, methodsOf_filter, List.filter_cons]
    split
    · rw [List.flatMap_cons, ih]
    · rw [List.nil_append, ih]

/-! ## Splitting the work -/

theorem methodsOfAll_append (first second : List ClassRecord) :
    methodsOfAll (first ++ second) = methodsOfAll first ++ methodsOfAll second :=
  List.flatMap_append

/-- Parts that are put together by position give what the whole list gives. -/
theorem Split.methodsOfAll_eq (split : Split) (records : List ClassRecord) :
    split.methodsOfAll records = Smali.methodsOfAll records := by
  induction split generalizing records with
  | whole => rfl
  | cut count left right ihl ihr =>
    rw [Split.methodsOfAll, ihl, ihr, ← methodsOfAll_append, List.take_append_drop]

theorem extractMethods_eq (parallel : Bool) (records : List ClassRecord) :
    extractMethods parallel records = methodsOfAll records := by
  cases parallel with
  | false => rfl
  | true => exact Split.methodsOfAll_eq _ records

end SmaliSieve.Smali
