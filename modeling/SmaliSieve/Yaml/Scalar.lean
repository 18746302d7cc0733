/-
  SmaliSieve.Yaml.Scalar

  The text of scalars. Inside a scalar that goes over several lines, a single line break
  is read as a space, and of several breaks in a row the first is dropped (`Gap.text`);
  only literal block scalars keep every break.
-/

import SmaliSieve.Yaml.Cursor

namespace SmaliSieve.Yaml

/-! ## Gaps -/

/-- White space between the words of a scalar. -/
structure Gap where
  /-- The blanks, as long as there is no break. -/
  blanks : List Char
  /-- The first break. -/
  first : List Char
  /-- The breaks behind the first one. -/
  more : List Char
  /-- There was a break. -/
  broken : Bool
  deriving DecidableEq, Repr

/-- No white space. -/
def Gap.none : Gap := ⟨[], [], [], false⟩

/-- What a gap is read as. -/
def Gap.text (gap : Gap) : List Char :=
  if !gap.broken then gap.blanks
  else if gap.first = ['\n'] then if gap.more.isEmpty then [' '] else gap.more
  else gap.first ++ gap.more

/-- The gap that stands at the cursor, as a continuation of `gap`, and the place behind
    it. `none` if a tab stands at the start of a line, in front of column `margin`. -/
def readGap (margin : Nat) : Nat → Gap → Cursor → Option (Gap × Cursor)
  | 0, gap, cursor => some (gap, cursor)
  | fuel + 1, gap, cursor =>
    match cursor.rest with
    | [] => some (gap, cursor)
    | c :: _ =>
      if isBlank c then
        if gap.broken && cursor.column < margin && c = '\t' then Option.none
        else
          let gap := if gap.broken then gap else { gap with blanks := gap.blanks ++ [c] }
          readGap margin fuel gap (cursor.skip 1)
      else if isBreak c then
        let (lineBreak, behind) := cursor.readBreak
        let gap :=
          if gap.broken then { gap with more := gap.more ++ lineBreak }
          else ⟨[], lineBreak, [], true⟩
        readGap margin fuel gap behind
      else some (gap, cursor)

/-! ## Plain scalars -/

/-- A character that structures flow collections. -/
def isFlowIndicator (c : Char) : Bool :=
  c = ',' || c = '[' || c = ']' || c = '\x7b' || c = '\x7d'

/-- The characters of a plain scalar up to white space or its end; `none` if a colon
    stands where neither a value nor a word can go on. -/
def plainWord (inFlow : Bool) : List Char → Option (List Char)
  | [] => some []
  | c :: rest =>
    if isGap c then some []
    else if inFlow && c = ':' && (rest.head?.map fun d => isFlowIndicator d || d = '?') = some true
    then none
    else if (c = ':' && gapAhead rest) || (inFlow && isFlowIndicator c) then some []
    else (plainWord inFlow rest).map (c :: ·)

/-- A scalar that was read: its text, whether the white space behind it holds a line
    break, and the place behind that white space. -/
structure ReadScalar where
  text : List Char
  broken : Bool
  cursor : Cursor
  deriving DecidableEq, Repr

/-- The rest of a plain scalar behind `text` and a gap. The scalar goes on as long as its
    lines start at column `margin` or behind it. -/
def readPlain (inFlow : Bool) (margin : Nat) :
    Nat → List Char → Gap → Cursor → Option ReadScalar
  | 0, text, gap, cursor => some ⟨text, gap.broken, cursor⟩
  | fuel + 1, text, gap, cursor =>
    if cursor.atDocumentEdge || cursor.rest.head? = some '#' then
      some ⟨text, gap.broken, cursor⟩
    else
      match plainWord inFlow cursor.rest with
      | none => none
      | some [] => some ⟨text, gap.broken, cursor⟩
      | some word =>
        let text := text ++ gap.text ++ word
        match readGap margin cursor.rest.length .none (cursor.skip word.length) with
        | none => none
        | some (gap, behind) =>
          if gap = .none || (!inFlow && behind.column < margin) then
            some ⟨text, gap.broken, behind⟩
          else readPlain inFlow margin fuel text gap behind

/-- The plain scalar at the cursor. -/
def plainScalar (inFlow : Bool) (margin : Nat) (cursor : Cursor) : Option ReadScalar :=
  readPlain inFlow margin (cursor.rest.length + 1) [] .none cursor

/-! ## Quoted scalars -/

/-- The value of a hexadecimal digit. -/
def hexDigit? (c : Char) : Option Nat :=
  if c.isDigit then some (c.toNat - '0'.toNat)
  else if 'a' ≤ c && c ≤ 'f' then some (c.toNat - 'a'.toNat + 10)
  else if 'A' ≤ c && c ≤ 'F' then some (c.toNat - 'A'.toNat + 10)
  else none

/-- The characters that a backslash and a character stand for. -/
def shortEscapes : List (Char × Char) :=
  [('0', '\x00'), ('a', '\x07'), ('b', '\x08'), ('t', '\t'), ('\t', '\t'), ('n', '\n'),
   ('v', '\x0b'), ('f', '\x0c'), ('r', '\r'), ('e', '\x1b'), (' ', ' '), ('"', '"'),
   ('/', '/'), ('\\', '\\'), ('N', '\u0085'), ('_', '\u00a0'), ('L', '\u2028'),
   ('P', '\u2029')]

/-- The number of hexadecimal digits behind a backslash and a letter. -/
def longEscapes : List (Char × Nat) := [('x', 2), ('u', 4), ('U', 8)]

/-- The character that the escape at the start of `text` stands for, and the number of
    characters it is written with; `text` is what follows the backslash. -/
def escape? : List Char → Option (Char × Nat)
  | [] => none
  | c :: rest =>
    match shortEscapes.lookup c, longEscapes.lookup c with
    | some char, _ => some (char, 1)
    | none, some count => do
      let digits := rest.take count
      if digits.length < count then none
      else
        let values ← digits.mapM hexDigit?
        let number := values.foldl (· * 16 + ·) 0
        if number.isValidChar then some (Char.ofNat number, count + 1) else none
    | none, none => none

/-- How a run of characters in a quoted scalar ends. -/
inductive RunEnd where
  /-- In front of the closing quote or of white space. -/
  | plain
  /-- Behind a break that was escaped. -/
  | escapedBreak
  deriving DecidableEq, Repr

/-- The characters of a quoted scalar up to white space or the closing quote. -/
def quotedRun (double : Bool) :
    Nat → List Char → Cursor → Option (List Char × RunEnd × Cursor)
  | 0, _, _ => none
  | fuel + 1, text, cursor =>
    match cursor.rest with
    | [] => some (text, .plain, cursor)
    | c :: rest =>
      if isGap c then some (text, .plain, cursor)
      else if double then
        if c = '"' then some (text, .plain, cursor)
        else if c = '\\' then
          if (rest.head?.map isBreak) = some true then
            some (text, .escapedBreak, (cursor.skip 1).skipBreak)
          else
            match escape? rest with
            | some (char, count) =>
              quotedRun double fuel (text ++ [char]) (cursor.skip (count + 1))
            | none => none
        else quotedRun double fuel (text ++ [c]) (cursor.skip 1)
      else if c = '\x27' then
        if rest.head? = some '\x27' then
          quotedRun double fuel (text ++ [c]) (cursor.skip 2)
        else some (text, .plain, cursor)
      else quotedRun double fuel (text ++ [c]) (cursor.skip 1)

/-- The rest of a quoted scalar behind `text`, and the place behind the closing quote. -/
def readQuoted (double : Bool) : Nat → List Char → Cursor → Option (List Char × Cursor)
  | 0, _, _ => none
  | fuel + 1, text, cursor =>
    if cursor.atDocumentEdge || cursor.rest.isEmpty then none
    else do
      let (run, runEnd, behind) ← quotedRun double (cursor.rest.length + 1) [] cursor
      let text := text ++ run
      let quote := if double then '"' else '\x27'
      if behind.rest.head? = some quote then return (text, behind.skip 1)
      else
        let gap : Gap := ⟨[], [], [], runEnd = .escapedBreak⟩
        let (gap, behind) ← readGap 0 behind.rest.length gap behind
        readQuoted double fuel (text ++ gap.text) behind

/-- The quoted scalar at the cursor, which stands in front of the opening quote. -/
def quotedScalar (double : Bool) (cursor : Cursor) : Option (List Char × Cursor) :=
  readQuoted double (cursor.rest.length + 1) [] (cursor.skip 1)

/-! ## Block scalars -/

/-- What is done with the line breaks at the end of a block scalar. -/
inductive Chomping where
  /-- All are dropped. -/
  | strip
  /-- The first is kept. -/
  | clip
  /-- All are kept. -/
  | keep
  deriving DecidableEq, Repr

/-- The chomping and the indentation given in the header of a block scalar, in either
    order, and the place behind them. A zero is no indentation. -/
def blockHeader? (cursor : Cursor) : Option (Chomping × Option Nat × Cursor) :=
  let chomping? (cursor : Cursor) : Option Chomping :=
    match cursor.rest.head? with
    | some '+' => some .keep
    | some '-' => some .strip
    | _ => none
  let digit? (cursor : Cursor) : Option Nat :=
    (cursor.rest.head?.filter Char.isDigit).map fun c => c.toNat - '0'.toNat
  let checked (chomping : Chomping) (increment : Option Nat) (cursor : Cursor) :=
    if increment = some 0 then none else some (chomping, increment, cursor)
  match chomping? cursor, digit? cursor with
  | some chomping, _ =>
    let behind := cursor.skip 1
    match digit? behind with
    | some digit => checked chomping (some digit) (behind.skip 1)
    | none => checked chomping none behind
  | none, some digit =>
    let behind := cursor.skip 1
    match chomping? behind with
    | some chomping => checked chomping (some digit) (behind.skip 1)
    | none => checked .clip (some digit) behind
  | none, none => checked .clip none cursor

/-- The line breaks at the cursor, empty lines with their indentation included, the
    largest indentation seen, and the place behind. `indent` is the indentation if it is
    known. `none` if a tab stands in the indentation. -/
def blockBreaks (indent : Option Nat) :
    Nat → List Char → Nat → Cursor → Option (List Char × Nat × Cursor)
  | 0, breaks, widest, cursor => some (breaks, widest, cursor)
  | fuel + 1, breaks, widest, cursor =>
    let spaces := (cursor.rest.takeWhile (· = ' ')).length
    let room := match indent with
      | some indent => indent - cursor.column
      | none => spaces
    let cursor := cursor.skip (min spaces room)
    let widest := max widest cursor.column
    let inside := match indent with
      | some indent => cursor.column < indent
      | none => true
    match cursor.rest with
    | [] => some (breaks, widest, cursor)
    | c :: _ =>
      if inside && c = '\t' then none
      else if isBreak c then
        let (lineBreak, behind) := cursor.readBreak
        blockBreaks indent fuel (breaks ++ lineBreak) widest behind
      else some (breaks, widest, cursor)

/-- What is known while the lines of a block scalar are read. -/
structure BlockLines where
  text : List Char
  /-- The break at the end of the last line. -/
  lineBreak : List Char
  /-- The breaks of the empty lines behind it. -/
  emptyLines : List Char
  /-- The last line starts with a blank. -/
  blankStart : Bool
  cursor : Cursor
  deriving DecidableEq, Repr

/-- One more line of a block scalar. -/
def BlockLines.add (lines : BlockLines) (literal : Bool) : BlockLines :=
  let (line, atEnd) := lines.cursor.span (!isBreak ·)
  let (lineBreak, behind) := atEnd.readBreak
  let blank := (line.head?.map isBlank).getD false
  let joined :=
    if !literal && lines.lineBreak = ['\n'] && !lines.blankStart && !blank then
      if lines.emptyLines.isEmpty then [' '] else []
    else lines.lineBreak
  ⟨lines.text ++ joined ++ lines.emptyLines ++ line, lineBreak, [], blank, behind⟩

/-- The lines of a block scalar that stand at column `indent`. -/
def blockLines (literal : Bool) (indent : Nat) : Nat → BlockLines → Option BlockLines
  | 0, lines => some lines
  | fuel + 1, lines =>
    if lines.cursor.column = indent && !lines.cursor.rest.isEmpty then do
      let lines := lines.add literal
      let (breaks, _, behind) ←
        blockBreaks (some indent) lines.cursor.rest.length [] 0 lines.cursor
      blockLines literal indent fuel { lines with emptyLines := breaks, cursor := behind }
    else some lines

/-- The block scalar at the cursor, which stands in front of its `|` or `>`. Its lines
    stand deeper than those of the collection it is in, which are at `outer`. -/
def blockScalar (literal : Bool) (outer : Int) (cursor : Cursor) :
    Option (List Char × Cursor) := do
  let (chomping, increment, behind) ← blockHeader? (cursor.skip 1)
  let behind ← behind.endLine?
  let given := increment.map fun increment => (max outer 0).toNat + increment
  let (breaks, widest, behind) ← blockBreaks given behind.rest.length [] 0 behind
  let indent := given.getD (max widest (max (outer + 1) 1).toNat)
  let lines ← blockLines literal indent (behind.rest.length + 1) ⟨[], [], breaks, false, behind⟩
  let tail := match chomping with
    | .strip => []
    | .clip => lines.lineBreak
    | .keep => lines.lineBreak ++ lines.emptyLines
  return (lines.text ++ tail, lines.cursor)

end SmaliSieve.Yaml
