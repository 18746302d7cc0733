/-
  SmaliSieve.Smali.Block

  Method blocks. A line that starts with `.method` opens a block and the next line that
  starts with `.end method` closes it; a `.method` inside an open block is text like any
  other. A block goes from the start of its first line to the end of the closing marker,
  and one that is never closed is no block.

  The scan goes over the lines once and keeps byte offsets only; the blocks are cut out
  of the text afterwards.
-/

import SmaliSieve.Text.Lines
import SmaliSieve.Text.Slice

namespace SmaliSieve.Smali

/-- What a line that opens a block starts with. -/
def openingMarker : List Char := ".method".toList

/-- What a line that closes a block starts with. -/
def closingMarker : List Char := ".end method".toList

/-- Where the scan over the lines stands. -/
inductive ScanState where
  /-- Between blocks. -/
  | outside
  /-- In a block that starts at this offset. -/
  | inside (start : Nat)
  deriving DecidableEq, Repr

/-- One line further, where `line` starts at `offset`: the new state, and the block that
    the line closes. -/
def ScanState.step (offset : Nat) (line : List Char) :
    ScanState → ScanState × Option Text.Span
  | .outside =>
    if Text.startsWith line openingMarker then (.inside offset, none) else (.outside, none)
  | .inside start =>
    if Text.startsWith line closingMarker then
      (.outside, some ⟨start, offset + Text.byteLength closingMarker⟩)
    else (.inside start, none)

/-- The blocks that are closed in `lines`, the first of which starts at `offset`, and the
    state behind the last line. -/
def scanLines (state : ScanState) (offset : Nat) :
    List (List Char) → List Text.Span × ScanState
  | [] => ([], state)
  | line :: rest =>
    let (next, closed) := state.step offset line
    let (spans, last) := scanLines next (offset + Text.byteLength line + 1) rest
    (closed.toList ++ spans, last)

/-- The scan over all lines of `content`. -/
def scan (content : List Char) : List Text.Span × ScanState :=
  scanLines .outside 0 (Text.segments '\n' content)

/-- Where the blocks of `content` stand, from first to last. -/
def blockSpans (content : List Char) : List Text.Span := (scan content).1

/-- The blocks of `content`, from first to last. -/
def blocksIn (content : List Char) : List (List Char) :=
  (blockSpans content).filterMap (Text.slice? content)

/-- The method blocks of `content`, from first to last. -/
def methodBlocks (content : String) : List String :=
  (blocksIn content.toList).map String.ofList

end SmaliSieve.Smali
