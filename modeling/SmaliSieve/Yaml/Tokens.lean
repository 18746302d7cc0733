/-
  SmaliSieve.Yaml.Tokens

  From characters to tokens. What makes YAML hard is that a key is recognised by the `:`
  behind it. So wherever a key may start, the place is remembered (`PossibleKey`), and
  when the `:` comes, the tokens that open the key and perhaps a block mapping are put in
  at that place. A possible key is given up at the end of its line or after 1024
  characters, unless it stands where only a key can stand.
-/

import SmaliSieve.Yaml.Tag

namespace SmaliSieve.Yaml

/-- The longest key, in characters, whose `:` is looked for. -/
def longestKey : Nat := 1024

/-- A place where a key may have started. -/
structure PossibleKey where
  /-- Only a key can stand here. -/
  required : Bool
  /-- The number of tokens in front of the key. -/
  number : Nat
  index : Nat
  line : Nat
  column : Nat
  deriving DecidableEq, Repr

/-- What is known while tokens are read. -/
structure Scan where
  cursor : Cursor
  /-- The tokens so far, last first. -/
  tokens : List Token
  /-- The column of the innermost block collection, -1 outside of all. -/
  indent : Int
  /-- The columns of the collections around it, innermost first. -/
  outer : List Int
  /-- The possible key of the innermost flow collection, or of the block. -/
  possible : Option PossibleKey
  /-- The possible keys around each flow collection that is open, innermost first. -/
  around : List (Option PossibleKey)
  /-- A key may start here. -/
  keyAllowed : Bool

namespace Scan

/-- The cursor is inside a flow collection. -/
def inFlow (scan : Scan) : Bool := !scan.around.isEmpty

/-- The scan with a token added. -/
def push (scan : Scan) (token : Token) : Scan := { scan with tokens := token :: scan.tokens }

/-- The scan with a token put in behind the first `number` tokens. -/
def insert (scan : Scan) (number : Nat) (token : Token) : Scan :=
  let behind := scan.tokens.length - number
  { scan with tokens := scan.tokens.take behind ++ token :: scan.tokens.drop behind }

/-- The scan `count` characters further. -/
def skip (scan : Scan) (count : Nat) : Scan := { scan with cursor := scan.cursor.skip count }

/-- The block collections that stand deeper than `column` closed. -/
def unroll (scan : Scan) (column : Int) : Scan :=
  if scan.inFlow then scan
  else
    let levels := scan.indent :: scan.outer
    let closed := (levels.takeWhile (column < ·)).length
    match levels.drop closed with
    | indent :: outer =>
      { scan with
        tokens := List.replicate closed .blockEnd ++ scan.tokens, indent := indent,
        outer := outer }
    | [] => scan

/-- A block collection opened at `column`, if that is deeper than the last one. Its token
    goes behind the first `number` tokens. -/
def roll (scan : Scan) (column number : Nat) (token : Token) : Scan :=
  if !scan.inFlow && scan.indent < column then
    { scan.insert number token with indent := column, outer := scan.indent :: scan.outer }
  else scan

/-- The possible key given up; `none` if it had to be a key. -/
def dropKey (scan : Scan) : Option Scan :=
  if (scan.possible.map PossibleKey.required).getD false then none
  else some { scan with possible := none }

/-- The place remembered as the start of a possible key, if a key is allowed here. -/
def saveKey (scan : Scan) : Option Scan :=
  if scan.keyAllowed then do
    let scan ← scan.dropKey
    let cursor := scan.cursor
    let required := !scan.inFlow && scan.indent = cursor.column
    return { scan with
      possible := some
        ⟨required, scan.tokens.length, cursor.index, cursor.line, cursor.column⟩ }
  else some scan

/-- The key cannot end here any more. -/
def isStale (cursor : Cursor) (key : PossibleKey) : Bool :=
  key.line < cursor.line || key.index + longestKey < cursor.index

/-- The possible keys that cannot end here any more given up; `none` if one of them had
    to be a key. -/
def dropStale (scan : Scan) : Option Scan :=
  let stale (key : Option PossibleKey) : Bool := (key.map (isStale scan.cursor)).getD false
  let fresh (key : Option PossibleKey) : Option PossibleKey :=
    key.filter fun key => !isStale scan.cursor key
  let keys := scan.possible :: scan.around
  if keys.any fun key => stale key && (key.map PossibleKey.required).getD false then none
  else some { scan with possible := fresh scan.possible, around := scan.around.map fresh }

/-- The scan behind white space, comments and line breaks. A tab is white space only
    where no key may start. -/
def skipToToken : Nat → Scan → Scan
  | 0, scan => scan
  | fuel + 1, scan =>
    let cursor := scan.cursor
    let cursor :=
      if cursor.index = 0 && cursor.rest.head? = some '\uFEFF' then cursor.skip 1 else cursor
    let tabs := scan.inFlow || !scan.keyAllowed
    let cursor := cursor.skipWhile fun c => c = ' ' || (tabs && c = '\t')
    let cursor := if cursor.rest.head? = some '#' then cursor.skipLine else cursor
    if (cursor.rest.head?.map isBreak).getD false then
      skipToToken fuel
        { scan with cursor := cursor.skipBreak, keyAllowed := scan.keyAllowed || !scan.inFlow }
    else { scan with cursor := cursor }

/-! ## One token -/

/-- The end of the text. -/
def endStream (scan : Scan) : Option Scan := do
  let scan ← (scan.unroll (-1)).dropKey
  return { scan with keyAllowed := false }.push .streamEnd

/-- A directive. -/
def readDirective (scan : Scan) : Option Scan := do
  let scan ← (scan.unroll (-1)).dropKey
  let (token, behind) ← directive scan.cursor
  return { scan with keyAllowed := false, cursor := behind }.push token

/-- A document mark. -/
def documentMark (scan : Scan) (token : Token) : Option Scan := do
  let scan ← (scan.unroll (-1)).dropKey
  return ({ scan with keyAllowed := false }.push token).skip 3

/-- The start of a flow collection. -/
def openFlow (scan : Scan) (token : Token) : Option Scan := do
  let scan ← scan.saveKey
  return ({ scan with
    around := scan.possible :: scan.around, possible := none, keyAllowed := true }.push
      token).skip 1

/-- The end of a flow collection. -/
def closeFlow (scan : Scan) (token : Token) : Option Scan := do
  let scan ← scan.dropKey
  let scan := match scan.around with
    | outer :: more => { scan with possible := outer, around := more }
    | [] => scan
  return ({ scan with keyAllowed := false }.push token).skip 1

/-- The comma in a flow collection. -/
def flowEntry (scan : Scan) : Option Scan := do
  let scan ← scan.dropKey
  return ({ scan with keyAllowed := true }.push .flowEntry).skip 1

/-- The dash in front of an item. -/
def blockEntry (scan : Scan) : Option Scan := do
  if !scan.inFlow && !scan.keyAllowed then none
  else
    let scan ← (scan.roll scan.cursor.column scan.tokens.length .blockSequenceStart).dropKey
    return ({ scan with keyAllowed := true }.push .blockEntry).skip 1

/-- The question mark in front of a key. -/
def keyMark (scan : Scan) : Option Scan := do
  if !scan.inFlow && !scan.keyAllowed then none
  else
    let scan ← (scan.roll scan.cursor.column scan.tokens.length .blockMappingStart).dropKey
    return ({ scan with keyAllowed := !scan.inFlow }.push .key).skip 1

/-- The colon in front of a value. -/
def valueMark (scan : Scan) : Option Scan :=
  match scan.possible with
  | some key =>
    -- what was read since the possible key turns out to be one
    let scan := (scan.insert key.number .key).roll key.column key.number .blockMappingStart
    some (({ scan with possible := none, keyAllowed := false }.push .value).skip 1)
  | none =>
    if !scan.inFlow && !scan.keyAllowed then none
    else
      let scan := scan.roll scan.cursor.column scan.tokens.length .blockMappingStart
      some (({ scan with keyAllowed := !scan.inFlow }.push .value).skip 1)

/-- A token that may start a key. -/
def keyStart (scan : Scan) (read : Cursor → Option (Token × Cursor)) : Option Scan := do
  let scan ← scan.saveKey
  let (token, behind) ← read scan.cursor
  return { scan with keyAllowed := false, cursor := behind }.push token

/-- A block scalar. -/
def readBlock (scan : Scan) (literal : Bool) : Option Scan := do
  let scan ← scan.dropKey
  let (text, behind) ← blockScalar literal scan.indent scan.cursor
  return { scan with keyAllowed := true, cursor := behind }.push
    (.scalar (if literal then .literal else .folded) text)

/-- A plain scalar. A key may start behind it if it is on another line. -/
def readPlain (scan : Scan) : Option Scan := do
  let scan ← scan.saveKey
  let read ← plainScalar scan.inFlow (scan.indent + 1).toNat scan.cursor
  return { scan with keyAllowed := read.broken, cursor := read.cursor }.push
    (.scalar .plain read.text)

/-- A character that no plain scalar starts with, unless something else than white space
    follows it. -/
def isIndicator (c : Char) : Bool :=
  "-?:,[]\x7b\x7d#&*!|>\x27\"%@`".toList.contains c

/-- A plain scalar starts with `c` in front of `rest`. -/
def startsPlain (inFlow : Bool) (c : Char) (rest : List Char) : Bool :=
  !(isGap c || isIndicator c) || (c = '-' && !((rest.head?.map isBlank).getD false))
    || (!inFlow && (c = '?' || c = ':') && !gapAhead rest)

/-- The scan with the next token, or with the end of the text. -/
def next (scan : Scan) : Option Scan := do
  let scan ← (skipToToken (scan.cursor.rest.length + 1) scan).dropStale
  -- a token further to the left closes the collections that it does not belong to
  let scan := scan.unroll scan.cursor.column
  let cursor := scan.cursor
  let inFlow := scan.inFlow
  match cursor.rest with
  | [] => scan.endStream
  | c :: rest =>
    if cursor.column = 0 && c = '%' then scan.readDirective
    else if cursor.atDocumentMark '-' then scan.documentMark .documentStart
    else if cursor.atDocumentMark '.' then scan.documentMark .documentEnd
    else if c = '[' then scan.openFlow .flowSequenceStart
    else if c = '\x7b' then scan.openFlow .flowMappingStart
    else if c = ']' then scan.closeFlow .flowSequenceEnd
    else if c = '\x7d' then scan.closeFlow .flowMappingEnd
    else if c = ',' then scan.flowEntry
    else if c = '-' && gapAhead rest then scan.blockEntry
    else if c = '?' && (inFlow || gapAhead rest) then scan.keyMark
    else if c = ':' && (inFlow || gapAhead rest) then scan.valueMark
    else if c = '*' then
      scan.keyStart fun cursor => (anchorName cursor).map fun read => (.alias read.1, read.2)
    else if c = '&' then
      scan.keyStart fun cursor => (anchorName cursor).map fun read => (.anchor read.1, read.2)
    else if c = '!' then scan.keyStart (tagToken inFlow)
    else if c = '|' && !inFlow then scan.readBlock true
    else if c = '>' && !inFlow then scan.readBlock false
    else if c = '\x27' then
      scan.keyStart fun cursor =>
        (quotedScalar false cursor).map fun read => (.scalar .single read.1, read.2)
    else if c = '"' then
      scan.keyStart fun cursor =>
        (quotedScalar true cursor).map fun read => (.scalar .double read.1, read.2)
    else if startsPlain inFlow c rest then scan.readPlain
    else none

/-- The scan with all tokens, of which there are at most `fuel` more. -/
def all : Nat → Scan → Option Scan
  | 0, _ => none
  | fuel + 1, scan => do
    let scan ← scan.next
    if scan.tokens.head? = some .streamEnd then some scan else all fuel scan

end Scan

/-- The tokens of a text, if it is made of tokens. A byte order mark may stand in
    front. -/
def tokens? (text : String) : Option (List Token) :=
  let chars := match text.toList with
    | '\uFEFF' :: rest => rest
    | chars => chars
  if chars.all isAllowed then
    let scan : Scan := ⟨.start chars, [], -1, [], none, [], true⟩
    (Scan.all (chars.length + 1) scan).map (·.tokens.reverse)
  else none

end SmaliSieve.Yaml
