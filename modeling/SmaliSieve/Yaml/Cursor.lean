/-
  SmaliSieve.Yaml.Cursor

  A place in a YAML text: what follows it, and its line and column, which decide much of
  the meaning of YAML. Line breaks are the line feed, the carriage return, both together,
  and the three Unicode line ends; in content the first four are all read as a line feed.
-/

namespace SmaliSieve.Yaml

/-- A character that may stand in a YAML text. -/
def isAllowed (c : Char) : Bool :=
  let n := c.toNat
  n = 0x09 || n = 0x0A || n = 0x0D || (0x20 ≤ n && n ≤ 0x7E) || n = 0x85 ||
    (0xA0 ≤ n && n ≤ 0xD7FF) || (0xE000 ≤ n && n ≤ 0xFFFD) || 0x10000 ≤ n

/-- A space or a tab. -/
def isBlank (c : Char) : Bool := c = ' ' || c = '\t'

/-- The start of a line break. -/
def isBreak (c : Char) : Bool :=
  c = '\r' || c = '\n' || c = '\u0085' || c = '\u2028' || c = '\u2029'

/-- A character that ends a word. -/
def isGap (c : Char) : Bool := isBlank c || isBreak c

/-- A character of a directive name, an anchor or a tag handle. -/
def isNameChar (c : Char) : Bool := c.isAlphanum || c = '-' || c = '_'

/-- A blank, a break or the end of the text comes first. -/
def gapAhead : List Char → Bool
  | [] => true
  | c :: _ => isGap c

/-- A break or the end of the text comes first. -/
def breakAhead : List Char → Bool
  | [] => true
  | c :: _ => isBreak c

/-- A place in a text. -/
structure Cursor where
  rest : List Char
  /-- The number of characters before this place. -/
  index : Nat
  line : Nat
  column : Nat
  deriving DecidableEq, Repr

namespace Cursor

/-- The first place of a text. -/
def start (text : List Char) : Cursor := ⟨text, 0, 0, 0⟩

/-- The place `count` characters further on the same line. -/
def skip (cursor : Cursor) (count : Nat) : Cursor :=
  ⟨cursor.rest.drop count, cursor.index + count, cursor.line, cursor.column + count⟩

/-- The characters from here on that satisfy `p`, and the place behind them. No line
    break may satisfy `p`. -/
def span (cursor : Cursor) (p : Char → Bool) : List Char × Cursor :=
  let found := cursor.rest.takeWhile p
  (found, cursor.skip found.length)

/-- The place behind the characters that satisfy `p`. -/
def skipWhile (cursor : Cursor) (p : Char → Bool) : Cursor := (cursor.span p).2

/-- The line break that stands here, as it counts in content, and the place behind it.
    Where there is no break nothing happens. -/
def readBreak (cursor : Cursor) : List Char × Cursor :=
  let next (count : Nat) : Cursor :=
    ⟨cursor.rest.drop count, cursor.index + count, cursor.line + 1, 0⟩
  match cursor.rest with
  | '\r' :: '\n' :: _ => (['\n'], next 2)
  | c :: _ =>
    if c = '\u2028' || c = '\u2029' then ([c], next 1)
    else if isBreak c then (['\n'], next 1)
    else ([], cursor)
  | [] => ([], cursor)

/-- The place behind the line break that stands here. -/
def skipBreak (cursor : Cursor) : Cursor := cursor.readBreak.2

/-- The place at the end of the line. -/
def skipLine (cursor : Cursor) : Cursor := cursor.skipWhile (!isBreak ·)

/-- The place behind blanks and a comment that fill the rest of the line, the line break
    included; `none` if anything else stands there. -/
def endLine? (cursor : Cursor) : Option Cursor :=
  let behind := cursor.skipWhile isBlank
  let behind := if behind.rest.head? = some '#' then behind.skipLine else behind
  if breakAhead behind.rest then some behind.skipBreak else none

/-- Here stands the three-fold `mark` of a document, at the start of a line. -/
def atDocumentMark (cursor : Cursor) (mark : Char) : Bool :=
  cursor.column = 0 && cursor.rest.take 3 = [mark, mark, mark] && gapAhead (cursor.rest.drop 3)

/-- Here a document starts or ends. -/
def atDocumentEdge (cursor : Cursor) : Bool :=
  cursor.atDocumentMark '-' || cursor.atDocumentMark '.'

end Cursor

end SmaliSieve.Yaml
