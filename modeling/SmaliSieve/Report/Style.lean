/-
  SmaliSieve.Report.Style

  Colours and lines of terminal output.
-/

import SmaliSieve.Text.Search

namespace SmaliSieve.Report

/-- A way to show text, by the codes that a terminal knows it under. -/
structure Style where
  codes : String
  deriving DecidableEq, Repr

namespace Style

/-- Section headers. -/
def header : Style := ⟨"1;36"⟩

/-- Paths of files. -/
def filePath : Style := ⟨"36"⟩

/-- Names of classes. -/
def className : Style := ⟨"1;37"⟩

/-- Opening lines of methods. -/
def signature : Style := ⟨"35"⟩

/-- Counts. -/
def count : Style := ⟨"1;37"⟩

/-- Labels next to counts. -/
def label : Style := ⟨"2"⟩

/-- Bars of charts. -/
def bar : Style := ⟨"36"⟩

/-- Notices. -/
def notice : Style := ⟨"33"⟩

/-- What is said in passing. -/
def aside : Style := ⟨"2"⟩

/-- The sequence that ends every style. -/
def reset : String := "\x1b[0m"

/-- The sequence that starts the style. -/
def opening (style : Style) : String := "\x1b[" ++ style.codes ++ "m"

/-- `text` with `mark` put in behind each occurrence of `piece`. The first `written`
    characters belong to an occurrence and are written already. -/
def insertAfter (piece mark : List Char) : Nat → List Char → List Char
  | _, [] => []
  | written + 1, _ :: text => insertAfter piece mark written text
  | 0, c :: text =>
    if Text.startsWith (c :: text) piece then
      piece ++ mark ++ insertAfter piece mark (piece.length - 1) text
    else c :: insertAfter piece mark 0 text

/-- `text` in the style, if there is colour at all. Where the text itself ends a style,
    this one starts again. -/
def paint (style : Style) (color : Bool) (text : String) : String :=
  if color then
    let inner := insertAfter reset.toList style.opening.toList 0 text.toList
    style.opening ++ String.ofList inner ++ reset
  else text

end Style

/-- `text` with spaces in front, up to `width` characters. -/
def padLeft (width : Nat) (text : String) : String :=
  String.ofList (List.replicate (width - text.length) ' ') ++ text

/-- `text` with spaces behind, up to `width` characters. -/
def padRight (width : Nat) (text : String) : String :=
  text ++ String.ofList (List.replicate (width - text.length) ' ')

/-- A heavy line across the page. -/
def heavyLine (width : Nat) : String := String.ofList (List.replicate width '━')

/-- A light line across the page. -/
def lightLine (width : Nat) : String := String.ofList (List.replicate width '─')

/-- The lines, each ended by a line feed. -/
def unlines (lines : List String) : String := String.join (lines.map (· ++ "\n"))

end SmaliSieve.Report
