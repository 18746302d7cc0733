/-
  SmaliSieve.Proofs.Smali.Rescan

  Blocks that are scanned again.

  `IsBlock` is the shape of a block, said without the text that it was found in: an opening
  line, lines that do not close it, and the closing marker. Every block that is found has
  this shape (`isBlock_of_mem`), and a text of this shape is its own only block and leaves
  none open (`IsBlock.readLines_segments`). Blocks can therefore be put together and taken
  apart again without loss (`methodBlocks_rescan`).
-/

import SmaliSieve.Proofs.Smali.Conservation
import SmaliSieve.Proofs.Smali.Joint

namespace SmaliSieve.Smali

open Text (joinWith segments)

/-- A line that opens a block, lines that do not close it, and the marker that does. -/
inductive IsBlock : List Char → Prop where
  | ofLines (first : List Char) (body : List (List Char)) (opening : opens first = true)
      (unclosed : ∀ line ∈ body, closes line = false)
      (feedless : ∀ line ∈ first :: body, '\n' ∉ line) :
      IsBlock (joinWith ['\n'] (first :: (body ++ [closingMarker])))

/-! ## What is found is a block -/

theorem isBlock_of_mem_blocksOfLines {lines : List (List Char)}
    (h : ∀ line ∈ lines, '\n' ∉ line) : ∀ block ∈ blocksOfLines lines, IsBlock block := by
  induction lines using blocksOfLines.induct with
  | case1 lines hopen =>
    rw [blocksOfLines_of_unopened hopen]
    exact fun block hmem => absurd hmem List.not_mem_nil
  | case2 lines first rest hopen hclose =>
    rw [blocksOfLines_of_unclosed hopen hclose]
    exact fun block hmem => absurd hmem List.not_mem_nil
  | case3 lines first rest hopen last behind hclose ih =>
    -- all lines of the block and all lines behind it are lines of the text
    have hlines : ∀ line ∈ first :: rest, line ∈ lines := by
      intro line hmem
      rw [← hopen] at hmem
      exact (List.dropWhile_suffix _).mem hmem
    have hbehind : ∀ line ∈ last :: behind, line ∈ lines := by
      intro line hmem
      rw [← hclose] at hmem
      exact hlines line (List.mem_cons_of_mem _ ((List.dropWhile_suffix _).mem hmem))
    have hbody : ∀ line ∈ beforeClosing rest, closes line = false := by
      intro line hmem
      simpa using List.mem_takeWhile_imp hmem
    have hfeedless : ∀ line ∈ first :: beforeClosing rest, '\n' ∉ line := by
      intro line hmem
      have hmem' : line ∈ first :: rest :=
        (List.Sublist.cons_cons first (List.takeWhile_sublist _)).mem hmem
      exact h line (hlines line hmem')
    rw [blocksOfLines_of_closed hopen hclose, take_of_closes (closes_of_fromClosing hclose)]
    intro block hmem
    rcases List.mem_cons.mp hmem with rfl | hmem
    · exact .ofLines first _ (opens_of_fromOpening hopen) hbody hfeedless
    · exact ih (fun line hin => h line (hbehind line (List.mem_cons_of_mem _ hin))) block hmem

theorem isBlock_of_mem {content block : String} (h : block ∈ methodBlocks content) :
    IsBlock block.toList := by
  rw [methodBlocks, blocksIn_eq_readLines, readLines_eq_blocksOfLines] at h
  obtain ⟨chars, hchars, rfl⟩ := List.mem_map.mp h
  rw [String.toList_ofList]
  exact isBlock_of_mem_blocksOfLines (fun line => Text.not_mem_of_mem_segments) chars hchars

/-! ## A block is found in itself -/

/-- Read line by line, a block is its own only block, and no other one is open behind it. -/
theorem IsBlock.readLines_segments {block : List Char} (h : IsBlock block) :
    readLines none (segments '\n' block) = ([block], none) := by
  obtain ⟨first, body, hopening, hunclosed, hfeedless⟩ := h
  have hmarker : closes closingMarker = true := by decide
  have hpieces : ∀ line ∈ first :: (body ++ [closingMarker]), '\n' ∉ line := by
    intro line hmem
    rw [← List.cons_append] at hmem
    rcases List.mem_append.mp hmem with hmem | hmem
    · exact hfeedless line hmem
    · rw [List.mem_singleton.mp hmem]
      decide
  rw [Text.segments_joinWith (List.cons_ne_nil _ _) hpieces, readLines_opening hopening,
    readLines_closed (fromClosing_append hunclosed hmarker),
    beforeClosing_append hunclosed hmarker]
  rfl

theorem IsBlock.scan_outside {block : List Char} (h : IsBlock block) :
    (scan block).2 = .outside := by
  rw [scan_outside_iff, h.readLines_segments]

theorem IsBlock.methodBlocks_eq {block : String} (h : IsBlock block.toList) :
    methodBlocks block = [block] := by
  rw [methodBlocks, blocksIn_eq_readLines, h.readLines_segments, List.map_singleton,
    String.ofList_toList]

/-- The shape of a block is all there is to being found in some text. -/
theorem isBlock_iff {block : String} :
    IsBlock block.toList ↔ ∃ content, block ∈ methodBlocks content := by
  constructor
  · intro h
    exact ⟨block, by rw [h.methodBlocks_eq]; exact List.mem_singleton_self block⟩
  · rintro ⟨content, hmem⟩
    exact isBlock_of_mem hmem

/-! ## Blocks put together -/

theorem methodBlocks_joinContents_of_isBlock {blocks : List String}
    (h : ∀ block ∈ blocks, IsBlock block.toList) : methodBlocks (joinContents blocks) = blocks := by
  have hown : blocks.flatMap methodBlocks = blocks.flatMap fun block => [block] :=
    List.flatMap_congr fun block hmem => (h block hmem).methodBlocks_eq
  rw [methodBlocks_joinContents fun block hmem => (h block hmem).scan_outside, hown,
    List.flatMap_singleton']

/-- Blocks of any texts that are joined by line feeds are the blocks of the text that this
    gives. In particular a block is the only block of itself, and joining the blocks of a text
    drops what stands between them and nothing else. -/
theorem methodBlocks_rescan :
    (∀ blocks : List String, (∀ block ∈ blocks, ∃ content, block ∈ methodBlocks content) →
      methodBlocks (joinContents blocks) = blocks) ∧
    (∀ content, ∀ block ∈ methodBlocks content, methodBlocks block = [block]) ∧
    ∀ content, methodBlocks (joinContents (methodBlocks content)) = methodBlocks content := by
  refine ⟨fun blocks hfound => ?_, fun content block hmem => ?_, fun content => ?_⟩
  · exact methodBlocks_joinContents_of_isBlock fun block hmem =>
      isBlock_iff.mpr (hfound block hmem)
  · exact (isBlock_of_mem hmem).methodBlocks_eq
  · exact methodBlocks_joinContents_of_isBlock fun block hmem => isBlock_of_mem hmem

/-- A block with an opening line in its body, and one that was cut out of a longer line. -/
theorem methodBlocks_rescan_twoTexts :
    (∀ block ∈ [".method a()V\n.method é()V\n.end method", ".methodical\n.end method"],
      ∃ content, block ∈ methodBlocks content) ∧
    methodBlocks (joinContents
        [".method a()V\n.method é()V\n.end method", ".methodical\n.end method"]) =
      [".method a()V\n.method é()V\n.end method", ".methodical\n.end method"] := by
  have hfound : ∀ block ∈ [".method a()V\n.method é()V\n.end method", ".methodical\n.end method"],
      ∃ content, block ∈ methodBlocks content := by
    intro block hmem
    rcases List.mem_pair.mp hmem with rfl | rfl
    · exact ⟨".end method\n.method a()V\n.method é()V\n.end method\n.method b()V",
        by decide +kernel⟩
    · exact ⟨".methodical\n.end methods\n", by decide +kernel⟩
  exact ⟨hfound, methodBlocks_rescan.1 _ hfound⟩

end SmaliSieve.Smali
