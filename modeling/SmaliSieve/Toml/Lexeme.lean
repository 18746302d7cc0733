/-
  SmaliSieve.Toml.Lexeme

  What stands between the tokens of a TOML document: blanks, line ends and comments. A
  carriage return counts only in front of a line feed, and control characters are
  nowhere allowed.
-/

namespace SmaliSieve.Toml

/-- White space inside a line. -/
def isBlank (c : Char) : Bool := c = ' ' || c = '\t'

/-- A control character that may not stand in a comment or a string. -/
def isForbidden (c : Char) : Bool := (c.toNat < 0x20 && c ≠ '\t') || c.toNat = 0x7F

/-- `text` without the blanks at its start. -/
def skipBlanks (text : List Char) : List Char := text.dropWhile isBlank

/-- What follows a line end, if `text` starts with one. -/
def newline? : List Char → Option (List Char)
  | '\n' :: rest => some rest
  | '\r' :: '\n' :: rest => some rest
  | _ => none

/-- `text` without a comment at its start, up to the end of the line; `none` if the
    comment holds a control character. -/
def skipComment : List Char → Option (List Char)
  | '#' :: rest =>
    let after := rest.dropWhile (!isForbidden ·)
    if after.isEmpty || (newline? after).isSome then some after else none
  | text => some text

/-- `text` behind the end of its line, which may hold blanks and a comment and nothing
    else. The end of the document ends a line too. -/
def endLine? (text : List Char) : Option (List Char) := do
  let after ← skipComment (skipBlanks text)
  if after.isEmpty then some [] else newline? after

/-- `text` without blanks, line ends and comments at its start, of which there are at
    most `fuel`. -/
def skipGapsFrom : Nat → List Char → Option (List Char)
  | 0, text => some text
  | fuel + 1, text => do
    let after ← skipComment (skipBlanks text)
    match newline? after with
    | some rest => skipGapsFrom fuel rest
    | none => some after

/-- `text` without the blanks, line ends and comments at its start; `none` if a comment
    holds a control character. -/
def skipGaps (text : List Char) : Option (List Char) := skipGapsFrom text.length text

end SmaliSieve.Toml
