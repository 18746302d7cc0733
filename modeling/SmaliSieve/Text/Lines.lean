/-
  SmaliSieve.Text.Lines

  Text as lines. Two notions are in use and they differ in small print:

    * `segments '\n' text` cuts at every line feed and keeps all there is between them,
      so a final line feed leaves an empty last segment and carriage returns stay;
    * `lines text` reads a list file: a final line feed ends the last line rather than
      starting another one, and one carriage return before a line feed belongs to it.
-/

namespace SmaliSieve.Text

/-- The pieces of `text` between the occurrences of `mark`: always one more than there
    are occurrences. -/
def segments (mark : Char) (text : List Char) : List (List Char) :=
  text.foldr
    (fun c pieces =>
      if c = mark then [] :: pieces
      else match pieces with
        | [] => [[c]]
        | piece :: more => (c :: piece) :: more)
    [[]]

/-- The pieces put together again with `mark` between them. -/
def joinWith (mark : List Char) : List (List Char) → List Char
  | [] => []
  | [piece] => piece
  | piece :: more => piece ++ mark ++ joinWith mark more

/-- `line` without one carriage return at its end. -/
def dropReturn (line : List Char) : List Char :=
  if line.getLast? = some '\r' then line.dropLast else line

/-- The lines of `text`. A line ends at a line feed, which takes a carriage return right
    before it along; what follows the last line feed is a line only if there is
    something, and it keeps a carriage return at its end. -/
def lines (text : List Char) : List (List Char) :=
  let pieces := segments '\n' text
  pieces.dropLast.map dropReturn ++ pieces.getLast?.toList.filter (· ≠ [])

theorem segments_nil (mark : Char) : segments mark [] = [[]] := rfl

theorem segments_cons_mark (mark : Char) (text : List Char) :
    segments mark (mark :: text) = [] :: segments mark text := by
  simp [segments]

theorem segments_ne_nil (mark : Char) (text : List Char) : segments mark text ≠ [] := by
  cases text with
  | nil => simp [segments]
  | cons c rest =>
    simp only [segments, List.foldr_cons]
    split
    · simp
    · split <;> simp

end SmaliSieve.Text
