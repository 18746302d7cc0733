/-
  SmaliSieve.Report.Json

  JSON values and their written form, with two spaces of indentation for each level and
  empty arrays and objects on one line. In strings only quotes, backslashes and control
  characters are escaped.
-/

import SmaliSieve.Text.Lines

namespace SmaliSieve.Report

/-- A JSON value. The members of an object keep their order. -/
inductive Json where
  | null
  | number (n : Nat)
  | string (text : String)
  | array (items : List Json)
  | object (members : List (String × Json))
  deriving Repr

namespace Json

/-! ## Strings -/

/-- The control characters that have an escape of their own. -/
def shortEscapes : List (Char × Char) :=
  [('"', '"'), ('\\', '\\'), ('\x08', 'b'), ('\x0c', 'f'), ('\n', 'n'), ('\r', 'r'),
   ('\t', 't')]

/-- The hexadecimal digit of a number below 16, in small letters. -/
def hexDigit (n : Nat) : Char :=
  if n < 10 then Char.ofNat ('0'.toNat + n) else Char.ofNat ('a'.toNat + (n - 10))

/-- A character as it is written in a string. -/
def escapeChar (c : Char) : List Char :=
  match shortEscapes.lookup c with
  | some letter => ['\\', letter]
  | none =>
    if c.toNat < 0x20 then
      ['\\', 'u', '0', '0', hexDigit (c.toNat / 16), hexDigit (c.toNat % 16)]
    else [c]

/-- A string with its quotes. -/
def quote (text : List Char) : List Char := '"' :: text.flatMap escapeChar ++ ['"']

/-! ## Values -/

/-- A line feed and the indentation of a level. -/
def newLine (level : Nat) : List Char := '\n' :: List.replicate (2 * level) ' '

/-- The written parts of a collection at some level, between its brackets. -/
def enclose (opening closing : Char) (level : Nat) (parts : List (List Char)) : List Char :=
  if parts.isEmpty then [opening, closing]
  else
    opening :: newLine (level + 1)
      ++ Text.joinWith (',' :: newLine (level + 1)) parts ++ newLine level ++ [closing]

mutual

/-- A value as it is written at some level. -/
def render (level : Nat) : Json → List Char
  | .null => "null".toList
  | .number n => (toString n).toList
  | .string text => quote text.toList
  | .array items => enclose '[' ']' level (renderItems (level + 1) items)
  | .object members => enclose '\x7b' '\x7d' level (renderMembers (level + 1) members)

/-- The items of an array. -/
def renderItems (level : Nat) : List Json → List (List Char)
  | [] => []
  | item :: rest => render level item :: renderItems level rest

/-- The members of an object. -/
def renderMembers (level : Nat) : List (String × Json) → List (List Char)
  | [] => []
  | (key, value) :: rest =>
    (quote key.toList ++ [':', ' '] ++ render level value) :: renderMembers level rest

end

/-- The written form. -/
def text (json : Json) : String := String.ofList (json.render 0)

/-- A string, or null. -/
def ofString? : Option String → Json
  | some text => .string text
  | none => .null

/-- A number, or null. -/
def ofNat? : Option Nat → Json
  | some n => .number n
  | none => .null

end Json

end SmaliSieve.Report
