/-
  SmaliSieve.Script.Token

  The tokens of a command script: words with their quotes resolved, and operators. A
  line feed is an operator too, and a comment goes to the end of its line.
-/

import SmaliSieve.Script.Word

namespace SmaliSieve.Script

/-- A token. -/
inductive Token where
  | word (word : Word)
  | operator (chars : List Char)
  deriving DecidableEq, Repr

/-- A character that operators are made of. -/
def isOperatorChar (c : Char) : Bool :=
  c = ';' || c = '&' || c = '|' || c = '<' || c = '>' || c = '(' || c = ')' || c = '\n'

/-- The operators of two characters. -/
def longOperators : List (List Char) :=
  ["&&".toList, "||".toList, ">>".toList, ";;".toList, ">&".toList]

/-- A character of a name. -/
def isNameChar (c : Char) : Bool := c.isAlphanum || c = '_'

/-- The name of a parameter, where `text` stands behind a `$`, and the text behind it. -/
def readParameter (text : List Char) : Option (List Char × List Char) :=
  match text with
  | '\x7b' :: rest =>
    match rest.dropWhile (· ≠ '\x7d') with
    | _ :: after => some (rest.takeWhile (· ≠ '\x7d'), after)
    | [] => none
  | c :: rest =>
    if c.isDigit || "#?$*@".toList.contains c then some ([c], rest)
    else if isNameChar c then
      some (c :: rest.takeWhile isNameChar, rest.dropWhile isNameChar)
    else none
  | [] => none

/-- How the characters of a word are read. -/
inductive Quoting where
  | bare
  /-- Inside single quotes. -/
  | single
  /-- Inside double quotes. -/
  | double
  deriving DecidableEq, Repr

/-- The parts of the word that `text` starts with and the text behind it; `none` if a
    quote is not closed. At most `fuel` parts are read. -/
def readParts : Nat → Quoting → List Char → Option (Word × List Char)
  | 0, _, _ => none
  | _ + 1, .bare, [] => some ([], [])
  | _ + 1, _, [] => none
  | fuel + 1, quoting, c :: rest =>
    let more (part : Part) (next : Quoting) (rest : List Char) :=
      (readParts fuel next rest).map fun read => (part :: read.1, read.2)
    match quoting with
    | .single =>
      if c = '\x27' then more (.literal [] true) .bare rest
      else more (.literal [c] true) .single rest
    | .double =>
      if c = '"' then more (.literal [] true) .bare rest
      else if c = '\\' then
        match rest with
        | '\n' :: after => readParts fuel .double after
        | d :: after =>
          if "$`\"\\".toList.contains d then more (.literal [d] true) .double after
          else more (.literal [c] true) .double rest
        | [] => none
      else if c = '$' then
        match readParameter rest with
        | some (name, after) => more (.value name true) .double after
        | none => more (.literal [c] true) .double rest
      else more (.literal [c] true) .double rest
    | .bare =>
      if isGap c || isOperatorChar c then some ([], c :: rest)
      else if c = '\x27' then more (.literal [] true) .single rest
      else if c = '"' then more (.literal [] false) .double rest
      else if c = '\\' then
        match rest with
        | '\n' :: after => readParts fuel .bare after
        | d :: after => more (.literal [d] true) .bare after
        | [] => more (.literal [c] true) .bare rest
      else if c = '$' then
        match readParameter rest with
        | some (name, after) => more (.value name false) .bare after
        | none => more (.literal [c] false) .bare rest
      else more (.literal [c] false) .bare rest

/-- The tokens of `text`; `none` if a quote is not closed. At most `fuel` tokens and gaps
    are read. -/
def readTokens : Nat → List Char → Option (List Token)
  | 0, _ => none
  | _ + 1, [] => some []
  | fuel + 1, c :: rest =>
    if c = ' ' || c = '\t' then readTokens fuel rest
    else if c = '#' then readTokens fuel (rest.dropWhile (· ≠ '\n'))
    else if isOperatorChar c then
      let long := (c :: rest).take 2
      if longOperators.contains long then
        (readTokens fuel (rest.drop 1)).map (.operator long :: ·)
      else (readTokens fuel rest).map (.operator [c] :: ·)
    else
      match readParts ((c :: rest).length + 1) .bare (c :: rest) with
      | none => none
      | some (word, after) => (readTokens fuel after).map (.word word :: ·)

/-- The tokens of a script; `none` if a quote is not closed. -/
def tokens (text : List Char) : Option (List Token) :=
  readTokens (text.length + 1) text

/-- The characters of a word that is written without quotes and parameters. -/
def bareText? (word : Word) : Option (List Char) :=
  (word.mapM bare?).map List.flatten
where
  /-- The characters of a literal part without quotes. -/
  bare? : Part → Option (List Char)
    | .literal chars false => some chars
    | _ => none

end SmaliSieve.Script
