/-
  SmaliSieve.Toml.Quoted

  Strings of a TOML document: basic ones with escapes, literal ones without, and both
  kinds over several lines. A line end right behind the opening of a multi-line string
  is no part of it; all other line ends are kept as they are.
-/

import SmaliSieve.Text.Search
import SmaliSieve.Toml.Lexeme

namespace SmaliSieve.Toml

/-- The value of a hexadecimal digit. -/
def hexDigit? (c : Char) : Option Nat :=
  if c.isDigit then some (c.toNat - '0'.toNat)
  else if 'a' ≤ c && c ≤ 'f' then some (c.toNat - 'a'.toNat + 10)
  else if 'A' ≤ c && c ≤ 'F' then some (c.toNat - 'A'.toNat + 10)
  else none

/-- The character whose number is written by exactly `count` hexadecimal digits at the
    start of `text`, and what follows. -/
def numberedChar? (count : Nat) (text : List Char) : Option (Char × List Char) := do
  let digits := text.take count
  if digits.length < count then none
  else
    let values ← digits.mapM hexDigit?
    let number := values.foldl (· * 16 + ·) 0
    if number.isValidChar then some (Char.ofNat number, text.drop count) else none

/-- The characters that a backslash and a letter stand for. -/
def shortEscapes : List (Char × Char) :=
  [('b', '\x08'), ('t', '\t'), ('n', '\n'), ('f', '\x0c'), ('r', '\r'), ('e', '\x1b'),
   ('"', '"'), ('\\', '\\')]

/-- The character that an escape stands for, where `text` follows the backslash, and what
    follows the escape. -/
def escape? : List Char → Option (Char × List Char)
  | [] => none
  | c :: rest =>
    match shortEscapes.lookup c with
    | some char => some (char, rest)
    | none =>
      if c = 'x' then numberedChar? 2 rest
      else if c = 'u' then numberedChar? 4 rest
      else if c = 'U' then numberedChar? 8 rest
      else none

/-- `text` without blanks and line ends at its start, the latter at most `fuel`. -/
def skipLineEnds : Nat → List Char → List Char
  | 0, text => text
  | fuel + 1, text =>
    match newline? (skipBlanks text) with
    | some rest => skipLineEnds fuel rest
    | none => skipBlanks text

/-- `text` behind a backslash that ends its line: without the rest of the line, and
    without all white space and line ends that follow. -/
def continued? (text : List Char) : Option (List Char) :=
  (newline? (skipBlanks text)).map fun rest => skipLineEnds (rest.length + 1) rest

/-- A basic string on one line, where `text` follows the opening quote: its characters
    and what follows the closing quote. -/
def basic? : Nat → List Char → Option (List Char × List Char)
  | 0, _ => none
  | _ + 1, [] => none
  | fuel + 1, c :: rest =>
    if c = '"' then some ([], rest)
    else if c = '\\' then do
      let (char, rest) ← escape? rest
      let (chars, rest) ← basic? fuel rest
      return (char :: chars, rest)
    else if isForbidden c then none
    else (basic? fuel rest).map fun read => (c :: read.1, read.2)

/-- A literal string on one line, where `text` follows the opening quote. -/
def literal? : List Char → Option (List Char × List Char)
  | [] => none
  | c :: rest =>
    if c = '\x27' then some ([], rest)
    else if isForbidden c then none
    else (literal? rest).map fun read => (c :: read.1, read.2)

/-- The end of a multi-line string, if `text` starts with three of its quotes. Up to two
    more quotes in front of the closing ones belong to the string. -/
def closing? (quote : Char) (text : List Char) : Option (List Char × List Char) :=
  let count := min 5 (text.takeWhile (· = quote)).length
  if 3 ≤ count then some (List.replicate (count - 3) quote, text.drop count) else none

/-- A multi-line string of either kind, where `text` follows the opening and the line end
    behind it. -/
def multiline? (quote : Char) : Nat → List Char → Option (List Char × List Char)
  | 0, _ => none
  | _ + 1, [] => none
  | fuel + 1, c :: rest =>
    match closing? quote (c :: rest) with
    | some read => some read
    | none =>
      if c = '\\' && quote = '"' then
        match continued? rest with
        | some rest => multiline? quote fuel rest
        | none => do
          let (char, rest) ← escape? rest
          let (chars, rest) ← multiline? quote fuel rest
          return (char :: chars, rest)
      else
        match newline? (c :: rest) with
        | some after => do
          let (chars, rest) ← multiline? quote fuel after
          return ((if c = '\r' then ['\r', '\n'] else ['\n']) ++ chars, rest)
        | none =>
          if isForbidden c then none
          else (multiline? quote fuel rest).map fun read => (c :: read.1, read.2)

/-- A string that stays on its line: its characters and what follows it. -/
def oneLine? : List Char → Option (List Char × List Char)
  | '"' :: rest => basic? (rest.length + 1) rest
  | '\x27' :: rest => literal? rest
  | _ => none

/-- Any string at the start of `text`: its characters and what follows it. -/
def string? (text : List Char) : Option (List Char × List Char) :=
  let body? (rest : List Char) (quote : Char) :=
    multiline? quote (rest.length + 1) ((newline? rest).getD rest)
  match Text.chop? ['"', '"', '"'] text, Text.chop? ['\x27', '\x27', '\x27'] text with
  | some rest, _ => body? rest '"'
  | _, some rest => body? rest '\x27'
  | _, _ => oneLine? text

end SmaliSieve.Toml
