/-
  SmaliSieve.Script.Command

  Command scripts as trees, and the reader that builds them: simple commands with
  redirections, lists with `;`, `&&` and `||`, `!`, braces, `if` and `for`. There are no
  open-ended loops, so every script comes to an end.
-/

import SmaliSieve.Script.Token

namespace SmaliSieve.Script

/-- A redirection of one of the streams of a command. -/
structure Redirection where
  /-- The number of the stream. -/
  stream : Nat
  /-- `<`, `>`, `>>` or `>&`. -/
  sign : List Char
  target : Word
  deriving DecidableEq, Repr

/-- A command. -/
inductive Command where
  /-- Nothing at all. -/
  | nothing
  | simple (words : List Word) (redirections : List Redirection)
  | sequence (first second : Command)
  | both (first second : Command)
  | either (first second : Command)
  | negated (command : Command)
  | choice (test yes no : Command)
  | forEach (name : List Char) (words : List Word) (body : Command)
  deriving Repr

/-- A token that is this bare word. -/
def Token.isBare (token : Token) (text : String) : Bool :=
  match token with
  | .word parts => bareText? parts = some text.toList
  | .operator _ => false

/-- A token that ends a command in a list. -/
def Token.isSeparator : Token → Bool
  | .operator chars => chars = [';'] || chars = ['\n']
  | .word _ => false

/-- `tokens` without the separators at the start. -/
def skipSeparators (tokens : List Token) : List Token := tokens.dropWhile Token.isSeparator

/-- `tokens` without the line feeds at the start. -/
def skipLines (tokens : List Token) : List Token := tokens.dropWhile (· = .operator ['\n'])

/-- The words that close a compound command. -/
def closers : List String := ["done", "do", "then", "else", "elif", "fi", "\x7d"]

/-- What follows the bare word `text`, which has to come first. -/
def expect? (text : String) : List Token → Option (List Token)
  | token :: rest => if token.isBare text then some rest else none
  | [] => none

/-- A redirection at the start of `tokens`. The sign stands directly behind the number of
    the stream in the script; that it does is not looked at. -/
def readRedirection? : List Token → Option (Redirection × List Token)
  | .operator sign :: .word target :: rest =>
    if sign = ['<'] then some (⟨0, sign, target⟩, rest)
    else if [['>'], ['>', '>'], ['>', '&']].contains sign then some (⟨1, sign, target⟩, rest)
    else none
  | .word number :: .operator sign :: .word target :: rest =>
    match bareText? number with
    | some [digit] =>
      if digit.isDigit && [['>'], ['>', '>'], ['>', '&']].contains sign then
        some (⟨digit.toNat - '0'.toNat, sign, target⟩, rest)
      else none
    | _ => none
  | _ => none

/-- The words and redirections of a simple command and the tokens behind it. At most
    `fuel` of them are read. -/
def readSimple : Nat → List Token → List Word × List Redirection × List Token
  | 0, tokens => ([], [], tokens)
  | fuel + 1, tokens =>
    match readRedirection? tokens with
    | some (redirection, rest) =>
      let (words, redirections, rest) := readSimple fuel rest
      (words, redirection :: redirections, rest)
    | none =>
      match tokens with
      | .word word :: rest =>
        let (words, redirections, rest) := readSimple fuel rest
        (word :: words, redirections, rest)
      | _ => ([], [], tokens)

/-- The words of a `for` command up to the separator. -/
def readWords : List Token → List Word × List Token
  | .word word :: rest => let (words, rest) := readWords rest; (word :: words, rest)
  | tokens => ([], tokens)

mutual

/-- A list of commands, up to the end of the script or a closing word. -/
def readList : Nat → List Token → Option (Command × List Token)
  | 0, _ => none
  | fuel + 1, tokens =>
    match skipSeparators tokens with
    | [] => some (.nothing, [])
    | token :: rest =>
      if closers.any token.isBare then some (.nothing, token :: rest)
      else do
        let (first, rest) ← readChain fuel (token :: rest)
        match rest with
        | [] => return (first, [])
        | next :: _ =>
          if next.isSeparator || closers.any next.isBare then
            let (second, rest) ← readList fuel rest
            return (.sequence first second, rest)
          else none

/-- Commands joined by `&&` and `||`. -/
def readChain : Nat → List Token → Option (Command × List Token)
  | 0, _ => none
  | fuel + 1, tokens => do
    let (first, rest) ← readCommand fuel tokens
    continueChain fuel first rest

/-- The rest of a chain that starts with `first`. -/
def continueChain : Nat → Command → List Token → Option (Command × List Token)
  | 0, _, _ => none
  | fuel + 1, first, tokens =>
    match tokens with
    | .operator ['&', '&'] :: rest => do
      let (second, rest) ← readCommand fuel (skipLines rest)
      continueChain fuel (.both first second) rest
    | .operator ['|', '|'] :: rest => do
      let (second, rest) ← readCommand fuel (skipLines rest)
      continueChain fuel (.either first second) rest
    | tokens => some (first, tokens)

/-- One command. -/
def readCommand : Nat → List Token → Option (Command × List Token)
  | 0, _ => none
  | fuel + 1, tokens =>
    match tokens with
    | [] => none
    | token :: rest =>
      if token.isBare "!" then do
        let (command, rest) ← readCommand fuel rest
        return (.negated command, rest)
      else if token.isBare "\x7b" then do
        let (command, rest) ← readList fuel rest
        return (command, ← expect? "\x7d" rest)
      else if token.isBare "if" then readChoice fuel rest
      else if token.isBare "for" then
        match rest with
        | .word name :: rest => do
          let name ← bareText? name
          let (words, rest) ←
            match expect? "in" (skipLines rest) with
            | some rest => some (readWords rest)
            | none => some ([[Part.value ['@'] true]], rest)
          let rest ← expect? "do" (skipSeparators rest)
          let (body, rest) ← readList fuel rest
          return (.forEach name words body, ← expect? "done" rest)
        | _ => none
      else
        match readSimple (token :: rest).length (token :: rest) with
        | ([], [], _) => none
        | (words, redirections, rest) => some (.simple words redirections, rest)

/-- What follows `if` or `elif`, up to and including `fi`. -/
def readChoice : Nat → List Token → Option (Command × List Token)
  | 0, _ => none
  | fuel + 1, tokens => do
    let (test, rest) ← readList fuel tokens
    let rest ← expect? "then" rest
    let (yes, rest) ← readList fuel rest
    match rest with
    | [] => none
    | token :: rest =>
      if token.isBare "fi" then return (.choice test yes .nothing, rest)
      else if token.isBare "elif" then
        let (no, rest) ← readChoice fuel rest
        return (.choice test yes no, rest)
      else if token.isBare "else" then
        let (no, rest) ← readList fuel rest
        return (.choice test yes no, ← expect? "fi" rest)
      else none

end

/-- The command that a script is, if it can be read. -/
def readScript (text : List Char) : Option Command := do
  let tokens ← tokens text
  match ← readList (8 * tokens.length + 8) tokens with
  | (command, []) => return command
  | _ => none

end SmaliSieve.Script
