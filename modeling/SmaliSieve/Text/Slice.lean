/-
  SmaliSieve.Text.Slice

  Cutting a piece out of a text by byte offsets. An offset that lies behind the end or
  inside a character cuts nothing, so a slice that exists is proof that both offsets
  were good.
-/

import SmaliSieve.Text.Search

namespace SmaliSieve.Text

/-- A stretch of text, by the byte offsets of its first byte and of the byte behind its
    last one. -/
structure Span where
  start : Nat
  stop : Nat
  deriving DecidableEq, Repr

/-- `text` without its first `count` bytes, if that is a whole number of characters. -/
def dropBytes? : Nat → List Char → Option (List Char)
  | 0, text => some text
  | _ + 1, [] => none
  | count + 1, c :: text =>
    if c.utf8Size ≤ count + 1 then dropBytes? (count + 1 - c.utf8Size) text else none

/-- The first `count` bytes of `text`, if that is a whole number of characters. -/
def takeBytes? : Nat → List Char → Option (List Char)
  | 0, _ => some []
  | _ + 1, [] => none
  | count + 1, c :: text =>
    if c.utf8Size ≤ count + 1 then
      (takeBytes? (count + 1 - c.utf8Size) text).map (c :: ·)
    else none

/-- The characters of `text` in `span`, if both ends of it lie between characters. -/
def slice? (text : List Char) (span : Span) : Option (List Char) :=
  if span.start ≤ span.stop then
    (dropBytes? span.start text).bind (takeBytes? (span.stop - span.start))
  else none

end SmaliSieve.Text
