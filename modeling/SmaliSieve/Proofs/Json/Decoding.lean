/-
  SmaliSieve.Proofs.Json.Decoding

  Reading JSON as any reader does, whoever wrote it.

  The reader takes one character after the other (`Reader.step`). It has a mode, which says whether
  it is between two tokens, in a word or in a string, and a state, which says what may come next and
  has the containers that are not closed yet on a stack. White space may stand between any two
  tokens, strings may have all escapes, also those of characters by their code units, and numbers
  may have a sign, a fraction and an exponent. Only a text that is one value as a whole can be
  decoded (`decode`).
-/

import Mathlib.Algebra.Order.Field.Rat
import SmaliSieve.Report.Json

namespace SmaliSieve.Report.Json

/-- A value as it is read. The members of an object keep their order. -/
inductive Value where
  | null
  | boolean (b : Bool)
  | number (q : ℚ)
  | string (text : String)
  | array (items : List Value)
  | object (members : List (String × Value))

/-! ## Numbers -/

/-- The digits at the start of `text`, at least one, and what follows. -/
def digits? (text : List Char) : Option (List Char × List Char) :=
  if text.takeWhile Char.isDigit = [] then none
  else some (text.takeWhile Char.isDigit, text.dropWhile Char.isDigit)

/-- The digits in front of the point, and what follows. Only the number zero starts with a
    zero. -/
def whole? (text : List Char) : Option (List Char × List Char) := do
  let (digits, rest) ← digits? text
  if digits.head? = some '0' && digits.length ≠ 1 then none else some (digits, rest)

/-- The digits behind the point, if there is one, and what follows. -/
def fraction? : List Char → Option (List Char × List Char)
  | '.' :: text => digits? text
  | text => some ([], text)

/-- The exponent, where nothing follows it. -/
def exponent? : List Char → Option ℤ
  | [] => some 0
  | mark :: text => do
    let (sign, text) := match text with
      | '-' :: text => (-1, text)
      | '+' :: text => (1, text)
      | text => (1, text)
    let (digits, rest) ← digits? text
    if (mark = 'e' || mark = 'E') && rest = [] then
      some (sign * (Nat.ofDigitChars 10 digits 0 : ℤ))
    else none

/-- A number without a sign. -/
def magnitude? (word : List Char) : Option ℚ := do
  let (whole, rest) ← whole? word
  let (places, rest) ← fraction? rest
  let exponent ← exponent? rest
  return (Nat.ofDigitChars 10 (whole ++ places) 0 : ℚ) * 10 ^ (exponent - places.length)

/-- A number. -/
def number? : List Char → Option ℚ
  | '-' :: word => (magnitude? word).map (- ·)
  | word => magnitude? word

/-! ## Strings -/

/-- The value of a hexadecimal digit, in small letters or in capitals. -/
def hexValue? (c : Char) : Option Nat :=
  if c.isDigit then some (c.toNat - '0'.toNat)
  else if 'a' ≤ c && c ≤ 'f' then some (c.toNat - 'a'.toNat + 10)
  else if 'A' ≤ c && c ≤ 'F' then some (c.toNat - 'A'.toNat + 10)
  else none

/-- The code unit that is written by four hexadecimal digits. -/
def codeUnit? (a b c d : Char) : Option Nat := do
  let a ← hexValue? a
  let b ← hexValue? b
  let c ← hexValue? c
  let d ← hexValue? d
  return ((a * 16 + b) * 16 + c) * 16 + d

/-- The unit is the first one of a pair. -/
def isLeading (unit : Nat) : Bool := 0xD800 ≤ unit && unit < 0xDC00

/-- The unit is the second one of a pair. -/
def isTrailing (unit : Nat) : Bool := 0xDC00 ≤ unit && unit < 0xE000

/-- The character of a pair of code units. -/
def pairedChar? (leading trailing : Nat) : Option Char :=
  if isLeading leading && isTrailing trailing then
    some (Char.ofNat (0x10000 + (leading - 0xD800) * 0x400 + (trailing - 0xDC00)))
  else none

/-- The character of a code unit that is not one of a pair. -/
def singleChar? (unit : Nat) : Option Char :=
  if isLeading unit || isTrailing unit then none else some (Char.ofNat unit)

/-- The characters that a backslash and a letter stand for. -/
def escapeLetters : List (Char × Char) :=
  [('"', '"'), ('\\', '\\'), ('/', '/'), ('b', '\x08'), ('f', '\x0c'), ('n', '\n'), ('r', '\r'),
   ('t', '\t')]

/-- The characters of a string, where `body` is what stands between its quotes. -/
def unescape (body : List Char) : Option (List Char) :=
  match body with
  | [] => some []
  | '\\' :: 'u' :: a :: b :: c :: d :: rest => do
    let unit ← codeUnit? a b c d
    match singleChar? unit with
    | some char => return char :: (← unescape rest)
    | none =>
      -- the unit is one of a pair, and the other one has to follow
      match rest with
      | '\\' :: 'u' :: e :: f :: g :: h :: rest =>
        return (← pairedChar? unit (← codeUnit? e f g h)) :: (← unescape rest)
      | _ => none
  | '\\' :: letter :: rest => do
    return (← escapeLetters.lookup letter) :: (← unescape rest)
  | c :: rest => if c = '\\' || c.toNat < 0x20 then none else (unescape rest).map (c :: ·)

/-! ## Tokens -/

/-- What a text is made of. -/
inductive Token where
  | openArray
  | closeArray
  | openObject
  | closeObject
  | comma
  | colon
  | string (text : String)
  /-- A value that is a word by itself: a number, a truth value or null. -/
  | plain (value : Value)

/-- The tokens of one character. -/
def marks : List (Char × Token) :=
  [('[', .openArray), (']', .closeArray), ('\x7b', .openObject), ('\x7d', .closeObject),
   (',', .comma), (':', .colon)]

/-- White space between tokens. -/
def isSpace (c : Char) : Bool := c = ' ' || c = '\t' || c = '\n' || c = '\r'

/-- The character belongs to a word. -/
def inWord (c : Char) : Bool := !isSpace c && c ≠ '"' && (marks.lookup c).isNone

/-- The value that a word stands for. -/
def plain? (word : List Char) : Option Value :=
  if word = "null".toList then some .null
  else if word = "true".toList then some (.boolean true)
  else if word = "false".toList then some (.boolean false)
  else (number? word).map .number

/-! ## Values -/

/-- A container that is not closed yet: what is in it, and in an object the key of the member whose
    value is to come. -/
inductive Frame where
  | array (before : List Value)
  | object (before : List (String × Value)) (key : String)

/-- Where the reading stands. The containers that are not closed are on a stack, the innermost one
    on top. -/
inductive State where
  /-- A value is to come. -/
  | awaiting (stack : List Frame)
  /-- The first item of an array, or its end, is to come. -/
  | firstItem (stack : List Frame)
  /-- The first key of an object, or its end, is to come. -/
  | firstKey (stack : List Frame)
  /-- Another key is to come, behind these members. -/
  | nextKey (before : List (String × Value)) (stack : List Frame)
  /-- The colon behind a key is to come. -/
  | colon (before : List (String × Value)) (key : String) (stack : List Frame)
  /-- A value is complete. -/
  | complete (value : Value) (stack : List Frame)

/-- The first token of a value. -/
def State.begin (stack : List Frame) : Token → Option State
  | .openArray => some (.firstItem stack)
  | .openObject => some (.firstKey stack)
  | .string text => some (.complete (.string text) stack)
  | .plain value => some (.complete value stack)
  | _ => none

/-- One token further, unless it may not stand there. -/
def State.step : State → Token → Option State
  | .awaiting stack, token => begin stack token
  | .firstItem stack, .closeArray => some (.complete (.array []) stack)
  | .firstItem stack, token => begin (.array [] :: stack) token
  | .firstKey stack, .closeObject => some (.complete (.object []) stack)
  | .firstKey stack, .string key => some (.colon [] key stack)
  | .nextKey before stack, .string key => some (.colon before key stack)
  | .colon before key stack, .colon => some (.awaiting (.object before key :: stack))
  | .complete value (.array before :: stack), .comma =>
    some (.awaiting (.array (before ++ [value]) :: stack))
  | .complete value (.array before :: stack), .closeArray =>
    some (.complete (.array (before ++ [value])) stack)
  | .complete value (.object before key :: stack), .comma =>
    some (.nextKey (before ++ [(key, value)]) stack)
  | .complete value (.object before key :: stack), .closeObject =>
    some (.complete (.object (before ++ [(key, value)])) stack)
  | _, _ => none

/-- The value that was read, if no container is left open. -/
def State.result? : State → Option Value
  | .complete value [] => some value
  | _ => none

/-! ## Readers -/

/-- Where a reader is between or within tokens. -/
inductive Mode where
  | gap
  /-- In a word that starts with these characters. -/
  | word (front : List Char)
  /-- In a string, behind this much of what stands between its quotes. -/
  | body (front : List Char)
  /-- In a string and behind a backslash, which is the last character here. -/
  | escape (front : List Char)

/-- A reader within a text. -/
structure Reader where
  mode : Mode
  state : State

/-- The reader behind a word. -/
def State.takeWord (state : State) (word : List Char) : Option State :=
  (plain? word).bind fun value => state.step (.plain value)

/-- A character between two tokens. -/
def State.takeChar (state : State) (c : Char) : Option Reader :=
  if isSpace c then some ⟨.gap, state⟩
  else
    match marks.lookup c with
    | some token => (state.step token).map (⟨.gap, ·⟩)
    | none => some ⟨if c = '"' then .body [] else .word [c], state⟩

/-- One character further, unless it may not stand there. -/
def Reader.step (reader : Reader) (c : Char) : Option Reader :=
  match reader.mode with
  | .gap => reader.state.takeChar c
  | .word front =>
    if inWord c then some { reader with mode := .word (front ++ [c]) }
    else (reader.state.takeWord front).bind (·.takeChar c)
  | .body front =>
    if c = '"' then
      (unescape front).bind fun chars =>
        (reader.state.step (.string (String.ofList chars))).map (⟨.gap, ·⟩)
    else if c = '\\' then some { reader with mode := .escape (front ++ [c]) }
    else some { reader with mode := .body (front ++ [c]) }
  | .escape front => some { reader with mode := .body (front ++ [c]) }

/-- The value that was read, at the end of the text. -/
def Reader.result? (reader : Reader) : Option Value :=
  match reader.mode with
  | .gap => reader.state.result?
  | .word front => (reader.state.takeWord front).bind (·.result?)
  | _ => none

/-- The value that is read when `text` is what is left. -/
def Reader.read (reader : Reader) (text : List Char) : Option Value :=
  (text.foldlM Reader.step reader).bind Reader.result?

/-- The value that is written in `text`. -/
def decode (text : String) : Option Value :=
  Reader.read ⟨.gap, .awaiting []⟩ text.toList

/-- White space may be anywhere between the tokens, and a character beyond the first plane may be
    written as a pair of code units. -/
example : decode " [ -1.5e1 ,\t\"\\ud83d\\uDE00\\/\" ]\r\n" =
    some (.array [.number (-15), .string "😀/"]) := by
  cbv

end SmaliSieve.Report.Json
