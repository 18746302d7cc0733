/-
  SmaliSieve.Xml.Reference

  References in the value of an attribute: the five predefined entities and characters
  by number, `&#65;` or `&#x41;`. `escape` writes the predefined ones; `unescape` reads
  every reference.
-/

import SmaliSieve.Xml.Fault

namespace SmaliSieve.Xml

/-- The predefined entities, by name. -/
def entities : List (List Char × Char) :=
  [("lt".toList, '<'), ("gt".toList, '>'), ("amp".toList, '&'), ("apos".toList, '\x27'),
   ("quot".toList, '"')]

/-- The characters with their predefined entities in place of those that have one. -/
def escape (text : List Char) : List Char :=
  text.flatMap fun c =>
    match entities.find? (·.2 = c) with
    | some (name, _) => '&' :: name ++ [';']
    | none => [c]

/-- The value of a digit in the given radix. -/
def digitValue? (radix : Nat) (c : Char) : Option Nat :=
  let value? :=
    if c.isDigit then some (c.toNat - '0'.toNat)
    else if 'a' ≤ c && c ≤ 'f' then some (c.toNat - 'a'.toNat + 10)
    else if 'A' ≤ c && c ≤ 'F' then some (c.toNat - 'A'.toNat + 10)
    else none
  value?.filter (· < radix)

/-- The number that the digits continue, read from left to right: the first character
    that is no digit, or that takes the number over 32 bits, ends the reading. -/
def readDigits (radix : Nat) : Nat → List Char → Except NumberFault Nat
  | number, [] => .ok number
  | number, c :: rest =>
    match digitValue? radix c with
    | none => .error .digit
    | some digit =>
      let next := number * radix + digit
      if next < 2 ^ 32 then readDigits radix next rest else .error .large

/-- The number written by `digits`, which need to be there and have no sign. -/
def readNumber (radix : Nat) (digits : List Char) : Except NumberFault Nat :=
  match digits with
  | [] => .error .empty
  | c :: _ => if c = '+' || c = '-' then .error .sign else readDigits radix 0 digits

/-- The character that the text between `&#` and `;` stands for. -/
def numberedChar (text : List Char) : Except NumberFault Char := do
  let number ← match text with
    | 'x' :: digits => readNumber 16 digits
    | digits => readNumber 10 digits
  if number = 0 then .error .zero
  else if number.isValidChar then .ok (Char.ofNat number)
  else .error (.codepoint number)

/-- The character that the text between `&` and `;` stands for, where `start` is the
    byte offset of that text. -/
def referencedChar (start : Nat) (text : List Char) : Except XmlFault Char :=
  match text with
  | '#' :: number => (numberedChar number).mapError .number
  | name =>
    match entities.lookup name with
    | some c => .ok c
    | none => .error (.unknownEntity start (start + Text.byteLength name) name)

/-- Where a reading of references stands. -/
inductive Place where
  /-- Outside of references. -/
  | plain
  /-- In a reference whose `&` is at `start`; `name` is its text so far, reversed. -/
  | reference (start : Nat) (name : List Char)
  deriving DecidableEq, Repr

/-- `text` with each reference replaced by its character, read from the byte offset
    `offset` of a value of `length` bytes. -/
def unescapeFrom (length : Nat) : Place → Nat → List Char → Except XmlFault (List Char)
  | .plain, _, [] => .ok []
  | .reference start _, _, [] => .error (.ampersandNotClosed start length)
  | .plain, offset, c :: rest =>
    if c = '&' then unescapeFrom length (.reference offset []) (offset + 1) rest
    else (unescapeFrom length .plain (offset + c.utf8Size) rest).map (c :: ·)
  | .reference start name, offset, c :: rest =>
    if c = '&' then .error (.ampersandNotClosed start length)
    else if c = ';' then do
      let char ← referencedChar (start + 1) name.reverse
      let more ← unescapeFrom length .plain (offset + 1) rest
      return char :: more
    else unescapeFrom length (.reference start (c :: name)) (offset + c.utf8Size) rest

/-- `text` with each reference replaced by its character. -/
def unescape (text : List Char) : Except XmlFault (List Char) :=
  unescapeFrom (Text.byteLength text) .plain 0 text

end SmaliSieve.Xml
