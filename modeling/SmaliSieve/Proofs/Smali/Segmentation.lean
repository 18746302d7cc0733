/-
  SmaliSieve.Proofs.Smali.Segmentation

  The method blocks of a text, said of its lines alone.

  `blocksOfLines` is the rule: skip to a line that opens a block, take the lines up to the
  first one that closes it, cut that one behind the marker, and go on behind it. The scan
  with its state and its byte offsets finds the same blocks (`methodBlocks_segmentation`).
  The slices that it takes are good ones: each begins and ends between two characters of
  the text, and they come one behind the other (`scanLines_ordered`).
-/

import Mathlib.Data.List.Forall2
import SmaliSieve.Proofs.Smali.LineScan

namespace SmaliSieve.Smali

open Text (Span byteLength joinWith segments slice? startsWith)

/-! ## The rule -/

/-- The line opens a block. -/
def opens (line : List Char) : Bool := startsWith line openingMarker

/-- The line closes a block. -/
def closes (line : List Char) : Bool := startsWith line closingMarker

/-- The lines from the first one on that opens a block. -/
def fromOpening (lines : List (List Char)) : List (List Char) :=
  lines.dropWhile fun line => !opens line

/-- The lines in front of the first one that closes a block. -/
def beforeClosing (lines : List (List Char)) : List (List Char) :=
  lines.takeWhile fun line => !closes line

/-- The lines from the first one on that closes a block. -/
def fromClosing (lines : List (List Char)) : List (List Char) :=
  lines.dropWhile fun line => !closes line

theorem length_of_fromClosing {lines rest behind : List (List Char)} {first last : List Char}
    (hopen : fromOpening lines = first :: rest) (hclose : fromClosing rest = last :: behind) :
    behind.length < lines.length := by
  have hopen' : (fromOpening lines).length ≤ lines.length := List.length_dropWhile_le _ _
  have hclose' : (fromClosing rest).length ≤ rest.length := List.length_dropWhile_le _ _
  rw [hopen, List.length_cons] at hopen'
  rw [hclose, List.length_cons] at hclose'
  omega

/-- The blocks of `lines`. A block goes from an opening line to the first closing line
    behind it, which is cut behind the marker; the next one is looked for behind that line,
    and an opening line without a closing line behind it opens nothing. -/
def blocksOfLines (lines : List (List Char)) : List (List Char) :=
  match _hopen : fromOpening lines with
  | [] => []
  | first :: rest =>
    match _hclose : fromClosing rest with
    | [] => []
    | last :: behind =>
      joinWith ['\n'] (first :: (beforeClosing rest ++ [last.take closingMarker.length])) ::
        blocksOfLines behind
termination_by lines.length
decreasing_by exact length_of_fromClosing ‹_› ‹_›

theorem blocksOfLines_of_unopened {lines : List (List Char)} (h : fromOpening lines = []) :
    blocksOfLines lines = [] := by
  rw [blocksOfLines]
  split
  · rfl
  · next first rest hopen =>
    rw [h] at hopen
    cases hopen

theorem blocksOfLines_of_unclosed {lines rest : List (List Char)} {first : List Char}
    (hopen : fromOpening lines = first :: rest) (hclose : fromClosing rest = []) :
    blocksOfLines lines = [] := by
  rw [blocksOfLines]
  split
  · rfl
  · next first' rest' hopen' =>
    obtain ⟨rfl, rfl⟩ := List.cons.inj (hopen.symm.trans hopen')
    split
    · rfl
    · next last behind hclose' =>
      rw [hclose] at hclose'
      cases hclose'

theorem blocksOfLines_of_closed {lines rest behind : List (List Char)} {first last : List Char}
    (hopen : fromOpening lines = first :: rest) (hclose : fromClosing rest = last :: behind) :
    blocksOfLines lines =
      joinWith ['\n'] (first :: (beforeClosing rest ++ [last.take closingMarker.length])) ::
        blocksOfLines behind := by
  rw [blocksOfLines]
  split
  · next hnone =>
    rw [hopen] at hnone
    cases hnone
  · next first' rest' hopen' =>
    obtain ⟨rfl, rfl⟩ := List.cons.inj (hopen.symm.trans hopen')
    split
    · next hnone =>
      rw [hclose] at hnone
      cases hnone
    · next last' behind' hclose' =>
      obtain ⟨rfl, rfl⟩ := List.cons.inj (hclose.symm.trans hclose')
      rfl

/-! ## The rule against the reader of lines -/

/-- Between blocks the reader skips to the next opening line. -/
theorem readLines_fromOpening (lines : List (List Char)) :
    readLines none lines = readLines none (fromOpening lines) := by
  induction lines with
  | nil => rfl
  | cons line rest ih =>
    rw [fromOpening]
    by_cases hopen : opens line = true
    · rw [List.dropWhile_cons_of_neg (by simp [hopen])]
    · have hskip : readLine line none = (none, none) := if_neg hopen
      rw [List.dropWhile_cons_of_pos (by simp [hopen]), readLines_cons, hskip]
      exact ih

/-- In a block the reader collects the lines up to the next closing line. -/
theorem readLines_beforeClosing (text : List Char) (lines : List (List Char)) :
    readLines (some text) lines =
      readLines (some (text ++ (beforeClosing lines).flatMap ('\n' :: ·))) (fromClosing lines) := by
  induction lines generalizing text with
  | nil => simp [beforeClosing, fromClosing]
  | cons line rest ih =>
    rw [beforeClosing, fromClosing]
    by_cases hclose : closes line = true
    · rw [List.dropWhile_cons_of_neg (by simp [hclose]),
        List.takeWhile_cons_of_neg (by simp [hclose])]
      simp
    · have hcollect : readLine line (some text) = (some (text ++ '\n' :: line), none) :=
        if_neg hclose
      rw [List.dropWhile_cons_of_pos (by simp [hclose]),
        List.takeWhile_cons_of_pos (by simp [hclose]), readLines_cons, hcollect]
      show readLines _ rest = _
      rw [ih, beforeClosing, fromClosing, List.flatMap_cons, List.append_assoc]

theorem readLines_opening {line : List Char} (h : opens line = true)
    (rest : List (List Char)) : readLines none (line :: rest) = readLines (some line) rest := by
  have hopen : readLine line none = (some line, none) := if_pos h
  rw [readLines_cons, hopen]
  rfl

theorem readLines_closing {line : List Char} (h : closes line = true) (text : List Char)
    (rest : List (List Char)) : readLines (some text) (line :: rest) =
      ((text ++ '\n' :: closingMarker) :: (readLines none rest).1, (readLines none rest).2) := by
  have hclose : readLine line (some text) = (none, some (text ++ '\n' :: closingMarker)) :=
    if_pos h
  rw [readLines_cons, hclose]
  rfl

theorem opens_of_fromOpening {lines rest : List (List Char)} {first : List Char}
    (h : fromOpening lines = first :: rest) : opens first = true := by
  have hhead := List.head?_dropWhile_not (fun line => !opens line) lines
  rw [← fromOpening, h] at hhead
  simpa using hhead

theorem closes_of_fromClosing {lines rest : List (List Char)} {first : List Char}
    (h : fromClosing lines = first :: rest) : closes first = true := by
  have hhead := List.head?_dropWhile_not (fun line => !closes line) lines
  rw [← fromClosing, h] at hhead
  simpa using hhead

/-- A closing line that is cut behind the marker is the marker. -/
theorem take_of_closes {line : List Char} (h : closes line = true) :
    line.take closingMarker.length = closingMarker := by
  obtain ⟨tail, rfl⟩ := startsWith_iff.mp h
  exact List.take_left

/-- An open block that no line closes gives nothing. -/
theorem readLines_unclosed {lines : List (List Char)} (h : fromClosing lines = [])
    (text : List Char) : (readLines (some text) lines).1 = [] := by
  rw [readLines_beforeClosing, h]
  rfl

/-- An open block takes the lines up to the first closing one, and that one up to the end of
    the marker. Behind it, the lines are read as if they stood alone. -/
theorem readLines_closed {lines behind : List (List Char)} {last : List Char}
    (h : fromClosing lines = last :: behind) (text : List Char) :
    readLines (some text) lines =
      (joinWith ['\n'] (text :: (beforeClosing lines ++ [closingMarker])) ::
        (readLines none behind).1, (readLines none behind).2) := by
  rw [readLines_beforeClosing, h, readLines_closing (closes_of_fromClosing h),
    Text.joinWith_eq_flatMap, List.flatMap_append, List.flatMap_singleton, List.append_assoc]

/-- The reader finds the blocks of the rule. -/
theorem readLines_eq_blocksOfLines (lines : List (List Char)) :
    (readLines none lines).1 = blocksOfLines lines := by
  -- one round of the rule is a skip, a collection and the line that closes the block
  induction lines using blocksOfLines.induct with
  | case1 lines hopen =>
    rw [blocksOfLines_of_unopened hopen, readLines_fromOpening, hopen]
    rfl
  | case2 lines first rest hopen hclose =>
    rw [blocksOfLines_of_unclosed hopen hclose, readLines_fromOpening, hopen,
      readLines_opening (opens_of_fromOpening hopen), readLines_unclosed hclose]
  | case3 lines first rest hopen last behind hclose ih =>
    rw [blocksOfLines_of_closed hopen hclose, readLines_fromOpening, hopen,
      readLines_opening (opens_of_fromOpening hopen), readLines_closed hclose, ih,
      take_of_closes (closes_of_fromClosing hclose)]

/-! ## The slices -/

/-- Where a block may start at the earliest that is closed from here on. -/
def ScanState.earliest (offset : Nat) : ScanState → Nat
  | .outside => offset
  | .inside start => start

/-- One line never takes the scan back, and a block that it closes ends in front of all that
    is closed later. -/
theorem step_ordered {state : ScanState} {offset : Nat} (h : state.earliest offset ≤ offset)
    (line : List Char) {next : ScanState} {closed : Option Span}
    (hstep : state.step offset line = (next, closed)) :
    let later := offset + byteLength line + 1
    state.earliest offset ≤ next.earliest later ∧ next.earliest later ≤ later ∧
      ∀ span ∈ closed, state.earliest offset ≤ span.start ∧ span.stop < next.earliest later := by
  intro later
  cases state with
  | outside =>
    rw [ScanState.step] at hstep
    split at hstep
    · obtain ⟨rfl, rfl⟩ := Prod.mk.inj hstep
      exact ⟨Nat.le_refl _, by simp only [ScanState.earliest]; omega, by simp⟩
    · obtain ⟨rfl, rfl⟩ := Prod.mk.inj hstep
      exact ⟨by simp only [ScanState.earliest]; omega, Nat.le_refl _, by simp⟩
  | inside start =>
    have hstart : start ≤ offset := h
    rw [ScanState.step] at hstep
    split at hstep
    · next hclose =>
      -- the marker is part of the line, so the line ends behind it
      obtain ⟨tail, rfl⟩ := startsWith_iff.mp hclose
      have hmarker : later = offset + byteLength closingMarker + byteLength tail + 1 := by
        rw [Nat.add_assoc offset, ← Text.byteLength_append]
      obtain ⟨rfl, rfl⟩ := Prod.mk.inj hstep
      refine ⟨by simp only [ScanState.earliest]; omega, Nat.le_refl _, ?_⟩
      intro span hspan
      obtain rfl := Option.some.inj hspan
      exact ⟨Nat.le_refl _, by simp only [ScanState.earliest]; omega⟩
    · obtain ⟨rfl, rfl⟩ := Prod.mk.inj hstep
      exact ⟨Nat.le_refl _, by simp only [ScanState.earliest]; omega, by simp⟩

/-- The slices of a scan stand one behind the other. -/
theorem scanLines_ordered {state : ScanState} {offset : Nat}
    (h : state.earliest offset ≤ offset) (lines : List (List Char)) :
    (∀ span ∈ (scanLines state offset lines).1, state.earliest offset ≤ span.start) ∧
      (scanLines state offset lines).1.Pairwise fun before after => before.stop < after.start := by
  induction lines generalizing state offset with
  | nil => exact ⟨fun span hmem => absurd hmem List.not_mem_nil, .nil⟩
  | cons line rest ih =>
    rcases hstep : state.step offset line with ⟨next, closed⟩
    obtain ⟨hnext, hlater, hclosed⟩ := step_ordered h line hstep
    obtain ⟨hbounds, hpairwise⟩ := ih hlater
    rw [scanLines_cons, hstep]
    constructor
    · intro span hmem
      rcases List.mem_append.mp hmem with hmem | hmem
      · exact (hclosed span (Option.mem_toList.mp hmem)).1
      · exact hnext.trans (hbounds span hmem)
    · refine List.pairwise_append.mpr ⟨?_, hpairwise, ?_⟩
      · cases closed with
        | none => exact .nil
        | some span => exact List.pairwise_singleton _ _
      · intro span hmem later hlatermem
        exact Nat.lt_of_lt_of_le (hclosed span (Option.mem_toList.mp hmem)).2
          (hbounds later hlatermem)

/-- The block stands in the text at the span: the offsets are numbers of bytes in UTF-8, and
    there are whole characters in front of the block and behind it. -/
def StandsAt (content : String) (span : Span) (block : String) : Prop :=
  ∃ front back, content = front ++ block ++ back ∧ span.start = front.utf8ByteSize ∧
    span.stop = front.utf8ByteSize + block.utf8ByteSize

theorem standsAt_of_slice? {content block : List Char} {span : Span}
    (h : slice? content span = some block) :
    StandsAt (String.ofList content) span (String.ofList block) := by
  obtain ⟨front, back, hcontent, hstart, hstop⟩ := Text.slice?_eq_some h
  refine ⟨String.ofList front, String.ofList back, ?_, ?_, ?_⟩
  · rw [hcontent, String.ofList_append, String.ofList_append, String.append_assoc]
  · rw [hstart, Text.utf8ByteSize_ofList]
  · rw [hstop, Text.utf8ByteSize_ofList, Text.utf8ByteSize_ofList]

/-- The scan over a text finds the blocks that the rule finds in its lines. Each block is cut
    out of the text between two offsets that lie between characters of the text, and every
    block ends in front of the next one. -/
theorem methodBlocks_segmentation (content : String) :
    methodBlocks content =
        (blocksOfLines (segments '\n' content.toList)).map String.ofList ∧
      List.Forall₂ (StandsAt content) (blockSpans content.toList) (methodBlocks content) ∧
      (blockSpans content.toList).Pairwise fun before after => before.stop < after.start := by
  refine ⟨?_, ?_, ?_⟩
  · rw [methodBlocks, blocksIn_eq_readLines, readLines_eq_blocksOfLines]
  · have hslices : List.Forall₂ Eq ((blockSpans content.toList).map (slice? content.toList))
        ((blocksIn content.toList).map some) := by
      rw [List.forall₂_eq_eq_eq, (scan_tracks content.toList).1, blocksIn_eq_readLines]
    rw [List.forall₂_map_left_iff, List.forall₂_map_right_iff] at hslices
    rw [methodBlocks, List.forall₂_map_right_iff]
    refine hslices.imp fun span block hslice => ?_
    have hblock := standsAt_of_slice? hslice
    rwa [String.ofList_toList] at hblock
  · exact (scanLines_ordered (Nat.le_refl _) _).2

end SmaliSieve.Smali
