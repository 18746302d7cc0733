/-
  SmaliSieve.Proofs.Smali.LineScan

  The scan for method blocks, over lines instead of byte offsets.

  The scanner keeps the offset at which the open block starts and cuts the blocks out of
  the text afterwards. `readLines` reads the same lines and keeps the text of the open
  block itself. `Tracks` ties the two together: it holds at the start, each line keeps it
  (`step_tracks`), and so every slice that the scanner takes exists and is the block that
  was read (`blocksIn_eq_readLines`).

  Over lines, texts joined by line feeds are lists of lines put one behind the other. Where
  the first text leaves no block open, the blocks of the whole are the blocks of both
  (`blocksIn_append`, `blocksIn_joinWith`).
-/

import SmaliSieve.Proofs.Text.Cutting
import SmaliSieve.Smali.Block

namespace SmaliSieve.Smali

open Text (byteLength joinWith segments slice? startsWith)

/-! ## Reading lines -/

/-- One line further: the text of the open block, if there is one, and the block that the
    line closes. -/
def readLine (line : List Char) : Option (List Char) → Option (List Char) × Option (List Char)
  | none => if startsWith line openingMarker then (some line, none) else (none, none)
  | some text =>
    if startsWith line closingMarker then (none, some (text ++ '\n' :: closingMarker))
    else (some (text ++ '\n' :: line), none)

/-- The blocks that `lines` close, and the text of the block that is open behind them. -/
def readLines (opened : Option (List Char)) :
    List (List Char) → List (List Char) × Option (List Char)
  | [] => ([], opened)
  | line :: rest =>
    let (next, closed) := readLine line opened
    let (blocks, last) := readLines next rest
    (closed.toList ++ blocks, last)

theorem readLines_cons (opened : Option (List Char)) (line : List Char)
    (rest : List (List Char)) :
    readLines opened (line :: rest) =
      ((readLine line opened).2.toList ++ (readLines (readLine line opened).1 rest).1,
        (readLines (readLine line opened).1 rest).2) := rfl

theorem scanLines_cons (state : ScanState) (offset : Nat) (line : List Char)
    (rest : List (List Char)) :
    scanLines state offset (line :: rest) =
      ((state.step offset line).2.toList
          ++ (scanLines (state.step offset line).1 (offset + byteLength line + 1) rest).1,
        (scanLines (state.step offset line).1 (offset + byteLength line + 1) rest).2) := rfl

theorem readLines_append (opened : Option (List Char)) (first second : List (List Char)) :
    readLines opened (first ++ second) =
      ((readLines opened first).1 ++ (readLines (readLines opened first).2 second).1,
        (readLines (readLines opened first).2 second).2) := by
  induction first generalizing opened with
  | nil => rfl
  | cons line first ih =>
    rw [List.cons_append, readLines_cons, ih, readLines_cons, List.append_assoc]

/-! ## The scanner against the reader -/

/-- With the text `before` behind them, the state of the scanner is that of the reader: a
    block that is open starts where the scanner says and has the text that was read. -/
inductive Tracks (before : List Char) : ScanState → Option (List Char) → Prop where
  | outside : Tracks before .outside none
  | inside (front text : List Char) (split : before = front ++ (text ++ ['\n'])) :
      Tracks before (.inside (byteLength front)) (some text)

theorem Tracks.outside_iff {before : List Char} {state : ScanState} {opened : Option (List Char)}
    (h : Tracks before state opened) : state = .outside ↔ opened = none := by
  cases h with
  | outside => simp
  | inside front text split => simp

theorem startsWith_iff {text piece : List Char} :
    startsWith text piece = true ↔ ∃ rest, text = piece ++ rest := by
  rw [startsWith, Option.isSome_iff_exists]
  simp only [Text.chop?_eq_some_iff]

/-- One line keeps scanner and reader together, and a block that it closes is what stands
    in the scanner's slice. -/
theorem step_tracks {before : List Char} {state : ScanState} {opened : Option (List Char)}
    (h : Tracks before state opened) (line more : List Char) :
    Tracks (before ++ (line ++ ['\n'])) (state.step (byteLength before) line).1
        (readLine line opened).1 ∧
      (state.step (byteLength before) line).2.map (slice? (before ++ (line ++ more))) =
        (readLine line opened).2.map some := by
  cases h with
  | outside =>
    by_cases hopen : startsWith line openingMarker = true
    · simp only [ScanState.step, readLine, if_pos hopen]
      exact ⟨.inside before line rfl, rfl⟩
    · simp only [ScanState.step, readLine, if_neg hopen]
      exact ⟨.outside, rfl⟩
  | inside front text split =>
    by_cases hclose : startsWith line closingMarker = true
    · simp only [ScanState.step, readLine, if_pos hclose]
      refine ⟨.outside, ?_⟩
      -- the slice ends right behind the marker, whatever else stands on the line
      obtain ⟨tail, rfl⟩ := startsWith_iff.mp hclose
      have hcontent : before ++ ((closingMarker ++ tail) ++ more) =
          front ++ ((text ++ '\n' :: closingMarker) ++ (tail ++ more)) := by
        simp [split]
      have hstop : byteLength before + byteLength closingMarker =
          byteLength front + byteLength (text ++ '\n' :: closingMarker) := by
        simp only [split, Text.byteLength_append, byteLength]
        omega
      rw [Option.map_some, Option.map_some, hcontent, hstop, Text.slice?_append]
    · simp only [ScanState.step, readLine, if_neg hclose]
      refine ⟨.inside front (text ++ '\n' :: line) ?_, rfl⟩
      simp [split]

/-- What the scanner cuts out of the text is what the reader reads, for any lines from
    any state on. -/
theorem scanLines_tracks {before : List Char} {state : ScanState}
    {opened : Option (List Char)} (h : Tracks before state opened)
    (lines : List (List Char)) :
    (scanLines state (byteLength before) lines).1.map
        (slice? (before ++ joinWith ['\n'] lines)) = (readLines opened lines).1.map some ∧
      Tracks (before ++ lines.flatMap (· ++ ['\n']))
        (scanLines state (byteLength before) lines).2 (readLines opened lines).2 := by
  -- `before` grows with every line, and the offset is its length all along
  induction lines generalizing before state opened with
  | nil => exact ⟨rfl, by simpa [scanLines, readLines] using h⟩
  | cons line rest ih =>
    obtain ⟨more, hmore⟩ : ∃ more, joinWith ['\n'] (line :: rest) = line ++ more := by
      cases rest with
      | nil => exact ⟨[], (List.append_nil line).symm⟩
      | cons next rest => exact ⟨_, List.append_assoc ..⟩
    obtain ⟨hnext, hclosed⟩ := step_tracks h line more
    obtain ⟨hblocks, hlast⟩ := ih hnext
    have hoffset : byteLength before + byteLength line + 1 =
        byteLength (before ++ (line ++ ['\n'])) := by
      have hfeed : byteLength ['\n'] = 1 := by decide
      rw [Text.byteLength_append, Text.byteLength_append, hfeed, Nat.add_assoc]
    rw [scanLines_cons, readLines_cons, hoffset]
    refine ⟨?_, by simpa using hlast⟩
    -- behind the last line nothing is closed, in front of it the text is the same
    have htail : (scanLines (state.step (byteLength before) line).1
          (byteLength (before ++ (line ++ ['\n']))) rest).1.map
          (slice? (before ++ joinWith ['\n'] (line :: rest))) =
        (readLines (readLine line opened).1 rest).1.map some := by
      cases rest with
      | nil => rfl
      | cons next rest =>
        rw [← hblocks, Text.joinWith_cons _ _ (List.cons_ne_nil next rest)]
        simp
    rw [List.map_append, List.map_append, htail, ← Option.toList_map, hmore, hclosed,
      Option.toList_map]

/-- The scan of a whole text, line by line. -/
theorem scan_tracks (content : List Char) :
    (blockSpans content).map (slice? content) =
        (readLines none (segments '\n' content)).1.map some ∧
      Tracks ((segments '\n' content).flatMap (· ++ ['\n'])) (scan content).2
        (readLines none (segments '\n' content)).2 := by
  have h := scanLines_tracks (Tracks.outside : Tracks [] .outside none) (segments '\n' content)
  rw [Text.joinWith_segments] at h
  exact h

/-- The blocks of a text are those that are read off its lines. -/
theorem blocksIn_eq_readLines (content : List Char) :
    blocksIn content = (readLines none (segments '\n' content)).1 := by
  have h := congrArg (List.filterMap id) (scan_tracks content).1
  rw [List.filterMap_map, List.filterMap_map] at h
  rw [blocksIn]
  exact h.trans (List.filterMap_some)

/-- The scan ends between blocks exactly if the lines leave no block open. -/
theorem scan_outside_iff (content : List Char) :
    (scan content).2 = .outside ↔ (readLines none (segments '\n' content)).2 = none :=
  (scan_tracks content).2.outside_iff

/-! ## Joined texts -/

/-- Where the first text leaves no block open, a line feed separates the blocks of two
    texts: no block is lost, merged or new. -/
theorem blocksIn_append {a : List Char} (h : (scan a).2 = .outside) (b : List Char) :
    blocksIn (a ++ '\n' :: b) = blocksIn a ++ blocksIn b := by
  rw [blocksIn_eq_readLines, Text.segments_append, readLines_append,
    (scan_outside_iff a).mp h, ← blocksIn_eq_readLines, ← blocksIn_eq_readLines]

/-- The same for any number of texts. -/
theorem blocksIn_joinWith {texts : List (List Char)}
    (h : ∀ text ∈ texts, (scan text).2 = .outside) :
    blocksIn (joinWith ['\n'] texts) = texts.flatMap blocksIn := by
  induction texts with
  | nil => rfl
  | cons text rest ih =>
    have hrest := ih fun text hmem => h text (List.mem_cons_of_mem _ hmem)
    rw [List.flatMap_cons, ← hrest]
    cases rest with
    | nil => exact (List.append_nil _).symm
    | cons next rest =>
      rw [Text.joinWith_cons _ _ (List.cons_ne_nil next rest), List.append_assoc]
      exact blocksIn_append (h text List.mem_cons_self) _

/-! ## What a block looks like -/

theorem readLines_shape {opened : Option (List Char)}
    (h : ∀ text ∈ opened, openingMarker <+: text) (lines : List (List Char)) :
    ∀ block ∈ (readLines opened lines).1,
      ∃ text, openingMarker <+: text ∧ block = text ++ '\n' :: closingMarker := by
  -- the line that opens a block starts with the marker, and text is only added behind it
  induction lines generalizing opened with
  | nil => exact fun block hmem => absurd hmem List.not_mem_nil
  | cons line rest ih =>
    intro block hmem
    rw [readLines_cons] at hmem
    cases opened with
    | none =>
      by_cases hopen : startsWith line openingMarker = true
      · obtain ⟨tail, rfl⟩ := startsWith_iff.mp hopen
        simp only [readLine, if_pos hopen] at hmem
        exact ih (by simp) block hmem
      · simp only [readLine, if_neg hopen] at hmem
        exact ih (by simp) block hmem
    | some text =>
      have htext : openingMarker <+: text := h text rfl
      by_cases hclose : startsWith line closingMarker = true
      · simp only [readLine, if_pos hclose] at hmem
        rcases List.mem_cons.mp hmem with rfl | hmem
        · exact ⟨text, htext, rfl⟩
        · exact ih (by simp) block hmem
      · simp only [readLine, if_neg hclose] at hmem
        exact ih (by simpa using htext.trans (List.prefix_append _ _)) block hmem

/-- A block starts with the opening marker and ends with a line that is the closing
    marker and nothing else. -/
theorem blocksIn_shape {content block : List Char} (h : block ∈ blocksIn content) :
    ∃ text, openingMarker <+: text ∧ block = text ++ '\n' :: closingMarker := by
  rw [blocksIn_eq_readLines] at h
  exact readLines_shape (by simp) _ block h

end SmaliSieve.Smali
