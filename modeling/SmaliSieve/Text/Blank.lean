/-
  SmaliSieve.Text.Blank

  White space as the Unicode property `White_Space` has it, and trimming by it.

  Names, prefix lists and manifest values are all trimmed with this one notion of
  space, so a no-break space or an ideographic space around an entry goes away just
  like a tab does, while a zero-width space or a byte order mark stays.
-/

namespace SmaliSieve.Text

/-- One of the inclusive ranges holds the code point of `c`. -/
def covers (ranges : List (Nat × Nat)) (c : Char) : Bool :=
  ranges.any fun range => range.1 ≤ c.toNat && c.toNat ≤ range.2

/-- The code points with the property `White_Space`, as inclusive ranges in ascending
    order. -/
def blankRanges : List (Nat × Nat) :=
  [(0x09, 0x0D), (0x20, 0x20), (0x85, 0x85), (0xA0, 0xA0), (0x1680, 0x1680),
   (0x2000, 0x200A), (0x2028, 0x2029), (0x202F, 0x202F), (0x205F, 0x205F),
   (0x3000, 0x3000)]

/-- `c` has the property `White_Space`. -/
def isBlank (c : Char) : Bool :=
  covers blankRanges c

/-- `text` without the longest run of `p` characters at its end. -/
def dropEndWhile (p : Char → Bool) (text : List Char) : List Char :=
  (text.reverse.dropWhile p).reverse

/-- `text` without the white space at both ends. -/
def trim (text : List Char) : List Char :=
  dropEndWhile isBlank (text.dropWhile isBlank)

/-- `text` without the white space at both ends. -/
def trimmed (text : String) : String :=
  String.ofList (trim text.toList)

/-- Nothing is left of `text` once it is trimmed. -/
def isVoid (text : String) : Bool :=
  (trim text.toList).isEmpty

theorem dropEndWhile_nil (p : Char → Bool) : dropEndWhile p [] = [] := rfl

end SmaliSieve.Text
