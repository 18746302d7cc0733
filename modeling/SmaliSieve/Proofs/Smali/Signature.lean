/-
  SmaliSieve.Proofs.Smali.Signature

  What the record of a method says of its block.

  A method is made of a block by trimming it, taking the first of its lines and trimming that
  too. None of this can fail or take away more than it should: a block has no white space at
  its ends, and its first line starts with the opening marker, so that at most the end of the
  line is trimmed, and not as far as into the marker (`signature_of_mem`).

  `Describes` collects all that is promised of one record. The records of a class describe its
  blocks one by one (`methodsOf_describe`), whatever characters stand in the blocks: a carriage
  return belongs to the white space at the end of the first line, and a second opening line is
  text like any other.
-/

import Mathlib.Data.List.Forall2
import SmaliSieve.Proofs.Smali.Extraction

namespace SmaliSieve.Smali

open Text (isBlank)

/-- The text up to the first line feed. -/
def firstLine (text : List Char) : List Char := text.takeWhile (· ≠ '\n')

/-- The method is the record of the block in the class: it has the block as it is, and the first
    line of the block, without white space at its end, for a signature. -/
structure Describes (record : ClassRecord) (block : String) (method : MethodRecord) : Prop where
  className_eq : method.className = record.className
  content_eq : method.content = block
  /-- There is nothing to be trimmed. -/
  trimmed_eq : Text.trimmed block = block
  /-- What the signature leaves out of the first line is white space. -/
  firstLine_eq : ∃ blanks : List Char, (∀ c ∈ blanks, isBlank c = true) ∧
    firstLine block.toList = method.signature.toList ++ blanks
  /-- There is none left at its end. -/
  ends : ∀ c, method.signature.toList.getLast? = some c → isBlank c = false
  feedless : '\n' ∉ method.signature.toList
  opened : openingMarker <+: method.signature.toList
  isPrefix : method.signature.toList <+: method.content.toList

/-! ## First lines -/

/-- The first line of a block starts with the opening marker. -/
theorem exists_firstLine {content block : List Char} (h : block ∈ blocksIn content) :
    ∃ tail, firstLine block = openingMarker ++ tail := by
  obtain ⟨text, ⟨tail, rfl⟩, rfl⟩ := blocksIn_shape h
  have hmarker : ∀ c ∈ openingMarker, decide (c ≠ '\n') = true :=
    List.all_eq_true.mp (by decide)
  refine ⟨(tail ++ '\n' :: closingMarker).takeWhile (· ≠ '\n'), ?_⟩
  rw [firstLine, List.append_assoc, List.takeWhile_append_of_pos hmarker]

/-- Behind the marker, which ends with a letter, only the end of the line can be trimmed. -/
theorem trim_marked (tail : List Char) :
    ∃ rest, Text.trim (openingMarker ++ tail) = openingMarker ++ rest ∧
      Text.trim (openingMarker ++ tail) = Text.dropEndWhile isBlank (openingMarker ++ tail) := by
  have hdrop : (openingMarker ++ tail).dropWhile isBlank = openingMarker ++ tail :=
    List.dropWhile_cons_of_neg (by decide)
  have htrim : Text.trim (openingMarker ++ tail) =
      Text.dropEndWhile isBlank (openingMarker ++ tail) := by rw [Text.trim, hdrop]
  have hmarker : Text.dropEndWhile isBlank openingMarker = openingMarker := by decide
  rw [htrim, Text.dropEndWhile_append]
  by_cases hblank : Text.dropEndWhile isBlank tail = []
  · rw [if_pos hblank, hmarker]
    exact ⟨[], (List.append_nil _).symm, rfl⟩
  · rw [if_neg hblank]
    exact ⟨_, rfl, rfl⟩

/-- The signature is the first line as far as it is not white space at the end, and it has the
    whole marker. -/
theorem signature_of_mem {content block : List Char} (h : block ∈ blocksIn content) :
    ∃ rest blanks, (∀ c ∈ blanks, isBlank c = true) ∧
      Text.trim (firstLine block) = openingMarker ++ rest ∧
      firstLine block = Text.trim (firstLine block) ++ blanks ∧
      ∀ c, (Text.trim (firstLine block)).getLast? = some c → isBlank c = false := by
  obtain ⟨tail, hline⟩ := exists_firstLine h
  obtain ⟨rest, hmarked, hdropped⟩ := trim_marked tail
  obtain ⟨blanks, hsplit, hblanks⟩ :=
    Text.exists_dropEndWhile_append isBlank (openingMarker ++ tail)
  rw [hline]
  refine ⟨rest, blanks, hblanks, hmarked, ?_, fun c hlast => ?_⟩
  · rwa [hdropped]
  · rw [hdropped] at hlast
    exact Text.getLast?_dropEndWhile hlast

/-! ## Records of blocks -/

theorem describes_recordOfBlock {record : ClassRecord} {block : String}
    (h : block ∈ methodBlocks record.content) :
    Describes record block (recordOfBlock record.className block) := by
  obtain ⟨chars, hchars, rfl⟩ := List.mem_map.mp h
  obtain ⟨rest, blanks, hblanks, hmarked, hsplit, hends⟩ := signature_of_mem hchars
  have hsignature : (recordOfBlock record.className (String.ofList chars)).signature.toList =
      Text.trim (firstLine chars) := by
    rw [recordOfBlock, String.toList_ofList, String.toList_ofList]
    rfl
  -- the signature, then white space, then the rest of the block
  have hline : Text.trim (firstLine chars) <+: firstLine chars := ⟨blanks, hsplit.symm⟩
  have hblock : firstLine chars <+: chars := List.takeWhile_prefix _
  refine ⟨rfl, rfl, ?_, ⟨blanks, hblanks, ?_⟩, ?_, ?_, ?_, ?_⟩
  · rw [Text.trimmed, String.toList_ofList, trim_block hchars]
  · rw [hsignature, String.toList_ofList]
    exact hsplit
  · rwa [hsignature]
  · rw [hsignature]
    intro hmem
    have hfeed := List.mem_takeWhile_imp (hline.mem hmem)
    exact absurd hfeed (by decide)
  · rw [hsignature, hmarked]
    exact List.prefix_append _ _
  · rw [hsignature]
    show _ <+: (String.ofList chars).toList
    rw [String.toList_ofList]
    exact hline.trans hblock

/-- The methods of a class describe the blocks of its content, one record for each block and in
    the order of the blocks. -/
theorem methodsOf_describe (record : ClassRecord) :
    List.Forall₂ (Describes record) (methodBlocks record.content) (methodsOf record) := by
  rw [methodsOf_eq_map, List.forall₂_map_right_iff, List.forall₂_same]
  intro block hmem
  exact describes_recordOfBlock hmem

/-- A carriage return and an ideographic space behind the opening line are no part of the
    signature, and stay in the block. -/
example : methodsOf ⟨"a.B", ".method é()V \u3000\r\n.method x()V\r\n.end method\r\n"⟩ =
    [⟨"a.B", ".method é()V", ".method é()V \u3000\r\n.method x()V\r\n.end method"⟩] := by
  decide +kernel

end SmaliSieve.Smali
