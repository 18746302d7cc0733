/-
  SmaliSieve.Proofs.Smali.Joint

  The method blocks of two texts with a line feed between them.

  The second text depends on the first one only through the state in which the scan of the
  first one ends (`methodBlocks_append`). Between blocks it is scanned as if it stood alone.
  In a block, that block is the first text from the offset in the state on (`exists_opened`);
  it goes on to the first closing line of the second text, behind which the scan is between
  blocks again (`readLines_closed`), or is dropped if there is no such line
  (`readLines_unclosed`). `methodBlocks_joint` has all of it.
-/

import SmaliSieve.Proofs.Smali.Segmentation

namespace SmaliSieve.Smali

open Text (byteLength joinWith segments)

/-- The lines as one text. -/
def textOf (lines : List (List Char)) : String := String.ofList (joinWith ['\n'] lines)

/-! ## The block that is open at the joint -/

/-- Where the scan ends in a block, the text that was read of it is what stands from its start
    on. -/
theorem exists_opened {content : List Char} {start : Nat}
    (h : (scan content).2 = .inside start) :
    ∃ front opened, content = front ++ opened ∧ byteLength front = start ∧
      (readLines none (segments '\n' content)).2 = some opened := by
  have htracks := (scan_tracks content).2
  -- the scan has read the text and one more line feed
  rw [h, Text.flatMap_append_mark _ (Text.segments_ne_nil _ _), Text.joinWith_segments] at htracks
  cases hread : (readLines none (segments '\n' content)).2 with
  | none =>
    rw [hread] at htracks
    cases htracks
  | some opened =>
    rw [hread] at htracks
    cases htracks with
    | inside front _ split =>
      rw [← List.append_assoc] at split
      exact ⟨front, opened, List.append_cancel_right split, rfl, rfl⟩

/-! ## The lines of the second text -/

section Lines

variable {before after : List (List Char)} {line : List Char}

theorem fromClosing_append (hbefore : ∀ earlier ∈ before, closes earlier = false)
    (hline : closes line = true) : fromClosing (before ++ line :: after) = line :: after := by
  rw [fromClosing, List.dropWhile_append_of_pos (by simpa using hbefore),
    List.dropWhile_cons_of_neg (by simp [hline])]

theorem beforeClosing_append (hbefore : ∀ earlier ∈ before, closes earlier = false)
    (hline : closes line = true) : beforeClosing (before ++ line :: after) = before := by
  rw [beforeClosing, List.takeWhile_append_of_pos (by simpa using hbefore),
    List.takeWhile_cons_of_neg (by simp [hline]), List.append_nil]

end Lines

theorem fromClosing_eq_nil {lines : List (List Char)}
    (h : ∀ line ∈ lines, closes line = false) : fromClosing lines = [] :=
  List.dropWhile_eq_nil_iff.mpr (by simpa using h)

/-- The blocks of lines that are put together are those that are read off the lines. -/
theorem methodBlocks_textOf {lines : List (List Char)} (h : ∀ line ∈ lines, '\n' ∉ line) :
    methodBlocks (textOf lines) = (readLines none lines).1.map String.ofList := by
  by_cases hne : lines = []
  · subst hne
    rfl
  · rw [methodBlocks, textOf, String.toList_ofList, blocksIn_eq_readLines,
      Text.segments_joinWith hne h]

/-! ## The joint -/

/-- Behind the joint, the second text is read on from the state in which the first one ends. -/
theorem methodBlocks_append (a b : String) :
    methodBlocks (a ++ "\n" ++ b) =
      methodBlocks a ++ ((readLines (readLines none (segments '\n' a.toList)).2
        (segments '\n' b.toList)).1.map String.ofList) := by
  have htext : (a ++ "\n" ++ b).toList = a.toList ++ '\n' :: b.toList := by simp
  rw [methodBlocks, htext, blocksIn_eq_readLines, Text.segments_append, readLines_append,
    List.map_append, methodBlocks, blocksIn_eq_readLines]

/-- An open block that no line of the second text closes takes all of that text along. -/
theorem methodBlocks_append_of_unclosed {a : String} {opened : List Char}
    (hopened : (readLines none (segments '\n' a.toList)).2 = some opened) {b : String}
    (h : ∀ line ∈ segments '\n' b.toList, closes line = false) :
    methodBlocks (a ++ "\n" ++ b) = methodBlocks a := by
  rw [methodBlocks_append, hopened, readLines_unclosed (fromClosing_eq_nil h), List.map_nil,
    List.append_nil]

/-- An open block ends with the marker of the first line of the second text that closes it. -/
theorem methodBlocks_append_of_closed {a : String} {opened : List Char}
    (hopened : (readLines none (segments '\n' a.toList)).2 = some opened) {b : String}
    {before after : List (List Char)} {line : List Char}
    (hlines : segments '\n' b.toList = before ++ line :: after)
    (hbefore : ∀ earlier ∈ before, closes earlier = false) (hline : closes line = true) :
    methodBlocks (a ++ "\n" ++ b) =
      methodBlocks a ++
        [String.ofList opened ++ "\n" ++ textOf (before ++ [line.take closingMarker.length])] ++
        methodBlocks (textOf after) := by
  have hafter : ∀ other ∈ after, '\n' ∉ other := by
    intro other hmem
    have hother : other ∈ segments '\n' b.toList := by
      rw [hlines]
      exact List.mem_append_right _ (List.mem_cons_of_mem _ hmem)
    exact Text.not_mem_of_mem_segments hother
  have hblock : String.ofList (joinWith ['\n'] (opened :: (before ++ [closingMarker]))) =
      String.ofList opened ++ "\n" ++ textOf (before ++ [line.take closingMarker.length]) := by
    apply String.toList_injective
    simp [textOf, take_of_closes hline, Text.joinWith_cons]
  rw [methodBlocks_append, hopened, hlines, readLines_closed (fromClosing_append hbefore hline),
    beforeClosing_append hbefore hline, List.map_cons, hblock, methodBlocks_textOf hafter,
    List.append_assoc, List.singleton_append]

/-- The blocks of two texts that are joined by a line feed. If the first text leaves no block
    open, they are the blocks of both. If it leaves the block open that starts at the offset
    `start`, they are those of the first text alone as long as no line of the second one
    closes it; otherwise the open block goes on up to the marker of the first such line, and
    the blocks of the text behind that line follow. -/
theorem methodBlocks_joint (a b : String) :
    ((scan a.toList).2 = .outside →
      methodBlocks (a ++ "\n" ++ b) = methodBlocks a ++ methodBlocks b) ∧
    ∀ start, (scan a.toList).2 = .inside start →
      ∃ front opened, a = front ++ opened ∧ front.utf8ByteSize = start ∧
        ((∀ line ∈ segments '\n' b.toList, closes line = false) →
          methodBlocks (a ++ "\n" ++ b) = methodBlocks a) ∧
        ∀ before line after, segments '\n' b.toList = before ++ line :: after →
          (∀ earlier ∈ before, closes earlier = false) → closes line = true →
          methodBlocks (a ++ "\n" ++ b) =
            methodBlocks a ++
              [opened ++ "\n" ++ textOf (before ++ [line.take closingMarker.length])] ++
              methodBlocks (textOf after) := by
  refine ⟨fun houtside => ?_, fun start hinside => ?_⟩
  · have hnone : (readLines none (segments '\n' a.toList)).2 = none :=
      (scan_outside_iff a.toList).mp houtside
    rw [methodBlocks_append, hnone, ← blocksIn_eq_readLines, ← methodBlocks]
  · obtain ⟨front, opened, hsplit, hstart, hopened⟩ := exists_opened hinside
    have htext : a = String.ofList front ++ String.ofList opened := by
      rw [← String.ofList_append, ← hsplit, String.ofList_toList]
    have hsize : (String.ofList front).utf8ByteSize = start := by
      rw [Text.utf8ByteSize_ofList, hstart]
    exact ⟨String.ofList front, String.ofList opened, htext, hsize,
      methodBlocks_append_of_unclosed hopened,
      fun _ _ _ hlines hbefore hline => methodBlocks_append_of_closed hopened hlines hbefore hline⟩

/-- A block that is open from the sixth byte on is closed in the next text, and another block
    follows. -/
theorem methodBlocks_joint_spanning :
    (scan "# é\n.method a()V".toList).2 = .inside 5 ∧
      ∃ front opened, "# é\n.method a()V" = front ++ opened ∧ front.utf8ByteSize = 5 ∧
        methodBlocks ("# é\n.method a()V" ++ "\n" ++
            "nop\n.end method # a\n.method b()V\n.end method") =
          methodBlocks "# é\n.method a()V" ++
            [opened ++ "\n" ++ textOf ["nop".toList, ".end method".toList]] ++
            methodBlocks (textOf [".method b()V".toList, ".end method".toList]) := by
  have hinside : (scan "# é\n.method a()V".toList).2 = .inside 5 := by decide +kernel
  obtain ⟨front, opened, hsplit, hstart, -, hclosed⟩ := (methodBlocks_joint "# é\n.method a()V"
    "nop\n.end method # a\n.method b()V\n.end method").2 5 hinside
  exact ⟨hinside, front, opened, hsplit, hstart, hclosed ["nop".toList]
    ".end method # a".toList [".method b()V".toList, ".end method".toList] (by decide +kernel)
    (by decide +kernel) (by decide +kernel)⟩

end SmaliSieve.Smali
