/-
  SmaliSieve.Toml.Reader

  Keys and values. Each reader takes the text from where it stands and gives back what
  it read and the text behind that, or nothing if the text is no TOML.
-/

import SmaliSieve.Toml.Node
import SmaliSieve.Toml.Quoted
import SmaliSieve.Toml.Scalar

namespace SmaliSieve.Toml

/-- A character of a key without quotes. -/
def isKeyChar (c : Char) : Bool := c.isAlphanum || c = '_' || c = '-'

/-- One part of a key. -/
def keyPart? (text : List Char) : Option (List Char × List Char) :=
  match oneLine? text with
  | some read => some read
  | none =>
    let part := text.takeWhile isKeyChar
    if part.isEmpty then none else some (part, text.dropWhile isKeyChar)

/-- A key: parts with dots between them, of which there are at most `fuel`. Blanks may
    stand around the dots and behind the key. -/
def keyParts? : Nat → List Char → Option (List (List Char) × List Char)
  | 0, _ => none
  | fuel + 1, text => do
    let (part, rest) ← keyPart? (skipBlanks text)
    match skipBlanks rest with
    | '.' :: rest =>
      let (parts, rest) ← keyParts? fuel rest
      return (part :: parts, rest)
    | rest => return ([part], rest)

/-- A key, dotted or not. -/
def key? (text : List Char) : Option (List (List Char) × List Char) :=
  keyParts? text.length text

/-- A character that ends a value without quotes. -/
def endsScalar (c : Char) : Bool :=
  isBlank c || c = '\n' || c = '\r' || c = ',' || c = ']' || c = '\x7d' || c = '#' || c = '='

/-- A time right behind `text` and one blank, where `text` is a date: the characters of
    both together. -/
def withTime (written rest : List Char) : List Char × List Char :=
  match date? written, rest with
  | some [], ' ' :: after =>
    let time := after.takeWhile (!endsScalar ·)
    if (time.head?.map Char.isDigit).getD false then
      (written ++ ' ' :: time, after.dropWhile (!endsScalar ·))
    else (written, rest)
  | _, _ => (written, rest)

/-- A value without quotes. -/
def bare? (text : List Char) : Option (Value × List Char) :=
  let (written, rest) :=
    withTime (text.takeWhile (!endsScalar ·)) (text.dropWhile (!endsScalar ·))
  (scalar? written).map (·, rest)

/-- So many brackets and braces may be open at a time. -/
def depthLimit : Nat := 80

mutual

/-- A value, in which `depth` more brackets and braces may be opened. -/
def value? : Nat → Nat → List Char → Option (Value × List Char)
  | 0, _, _ => none
  | fuel + 1, depth, text =>
    match depth, text with
    | _, [] => none
    | 0, '[' :: _ | 0, '\x7b' :: _ => none
    | depth + 1, '[' :: rest =>
      (items? fuel depth rest).map fun read => (.array read.1, read.2)
    | depth + 1, '\x7b' :: rest => do
      let (entries, rest) ← pairs? fuel depth [] rest
      return (.table (sealEntries entries), rest)
    | _, c :: rest =>
      if c = '"' || c = '\x27' then
        (string? (c :: rest)).map fun read => (.string read.1, read.2)
      else bare? (c :: rest)

/-- The items of an array up to its end. A comma may follow the last one. -/
def items? : Nat → Nat → List Char → Option (List Value × List Char)
  | 0, _, _ => none
  | fuel + 1, depth, text => do
    match ← skipGaps text with
    | ']' :: rest => return ([], rest)
    | text =>
      let (item, rest) ← value? fuel depth text
      match ← skipGaps rest with
      | ',' :: rest =>
        let (items, rest) ← items? fuel depth rest
        return (item :: items, rest)
      | ']' :: rest => return ([item], rest)
      | _ => none

/-- The entries of a table in braces up to its end, behind those in `entries`. A comma
    may follow the last one. -/
def pairs? : Nat → Nat → Entries → List Char → Option (Entries × List Char)
  | 0, _, _, _ => none
  | fuel + 1, depth, entries, text => do
    match ← skipGaps text with
    | '\x7d' :: rest => return (entries, rest)
    | text =>
      let (key, rest) ← key? text
      let rest ← Text.chop? ['='] rest
      let (value, rest) ← value? fuel depth (skipBlanks rest)
      let entries ← putKey value key entries
      match ← skipGaps rest with
      | ',' :: rest => pairs? fuel depth entries rest
      | '\x7d' :: rest => return (entries, rest)
      | _ => none

end

/-- A key, an equals sign and a value. -/
def pair? (text : List Char) : Option (List (List Char) × Value × List Char) := do
  let (key, rest) ← key? text
  let rest ← Text.chop? ['='] rest
  let (value, rest) ← value? (2 * text.length + 2) depthLimit (skipBlanks rest)
  return (key, value, rest)

end SmaliSieve.Toml
