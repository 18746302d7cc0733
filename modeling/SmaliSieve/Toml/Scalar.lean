/-
  SmaliSieve.Toml.Scalar

  Values that are written without quotes: booleans, integers, floats, and moments in
  time.
-/

import SmaliSieve.Text.Search
import SmaliSieve.Text.Lines
import SmaliSieve.Toml.Value

namespace SmaliSieve.Toml

/-! ## Digits -/

/-- Digits of the given class, where single underscores may stand between two of them:
    the digits without the underscores. -/
def digits? (isDigit : Char → Bool) (text : List Char) : Option (List Char) :=
  let groups := Text.segments '_' text
  if groups.all fun group => !group.isEmpty && group.all isDigit then some groups.flatten
  else none

/-- The number written by digits in a radix. -/
def numberOf (radix : Nat) (digits : List Char) : Nat :=
  digits.foldl (fun n c =>
      let value :=
        if c.isDigit then c.toNat - '0'.toNat else c.toLower.toNat - 'a'.toNat + 10
      n * radix + value) 0

/-- A hexadecimal digit. -/
def isHex (c : Char) : Bool :=
  c.isDigit || ('a' ≤ c && c ≤ 'f') || ('A' ≤ c && c ≤ 'F')

/-- A sign at the start of `text`, and what follows. -/
def cutSign : List Char → Option Char × List Char
  | '+' :: rest => (some '+', rest)
  | '-' :: rest => (some '-', rest)
  | text => (none, text)

/-! ## Numbers -/

/-- Digits of a decimal number: without a zero at the start, unless it is the number
    zero. -/
def decimal? (text : List Char) : Option (List Char) := do
  let digits ← digits? Char.isDigit text
  if text.head? = some '0' && text.length ≠ 1 then none else some digits

/-- The integers that can be told apart: 128 bits, signed or unsigned. -/
def fits (n : Int) : Bool := -(Nat.pow 2 127 : Int) ≤ n && n < (Nat.pow 2 128 : Int)

/-- An integer. -/
def integer? (text : List Char) : Option Int := do
  let unsigned (radix : Nat) (isDigit : Char → Bool) (digits : List Char) :=
    (digits? isDigit digits).map fun digits => (numberOf radix digits : Int)
  let n ← match text with
    | '0' :: 'x' :: digits => unsigned 16 isHex digits
    | '0' :: 'o' :: digits => unsigned 8 (fun c => '0' ≤ c && c ≤ '7') digits
    | '0' :: 'b' :: digits => unsigned 2 (fun c => c = '0' || c = '1') digits
    | text => do
      let (sign, text) := cutSign text
      let n := numberOf 10 (← decimal? text)
      return if sign = some '-' then -(n : Int) else n
  if fits n then some n else none

/-- A decimal fraction: digits, how many of them stand behind the point, and the exponent
    of ten. -/
structure Fraction where
  digits : List Char
  places : Nat
  exponent : Int
  deriving DecidableEq, Repr

/-- The number of decimal places that an exponent may have at most before the number is
    out of range or nothing, whatever its digits. -/
def farExponent : Nat := 400

/-- The number is too large for a float: it is at least halfway from the largest float to
    the next power of two. -/
def Fraction.overflows (fraction : Fraction) : Bool :=
  let number := numberOf 10 fraction.digits
  let shift := fraction.exponent - fraction.places
  let limit := Nat.pow 2 1024 - Nat.pow 2 970
  if number = 0 then false
  else if 0 ≤ shift then
    farExponent < shift.toNat || limit ≤ number * Nat.pow 10 shift.toNat
  else if fraction.digits.length + farExponent < shift.natAbs then false
  else limit * Nat.pow 10 shift.natAbs ≤ number

/-- A float with digits: a fractional part, an exponent, or both. -/
def fraction? (text : List Char) : Option Fraction := do
  let (_, text) := cutSign text
  let isMark (c : Char) : Bool := c = 'e' || c = 'E'
  let number := text.takeWhile (!isMark ·)
  let exponent ← match text.dropWhile (!isMark ·) with
    | [] => some none
    | _ :: written =>
      let (sign, digits) := cutSign written
      (digits? Char.isDigit digits).map fun digits =>
        let n := numberOf 10 digits
        some (if sign = some '-' then -(n : Int) else n)
  let whole ← decimal? (number.takeWhile (· ≠ '.'))
  match number.dropWhile (· ≠ '.'), exponent with
  | [], none => none
  | [], some exponent => return ⟨whole, 0, exponent⟩
  | _ :: places, exponent =>
    let places ← digits? Char.isDigit places
    return ⟨whole ++ places, places.length, exponent.getD 0⟩

/-- The floats that are written as words. -/
def floatWords : List (List Char) := ["inf".toList, "nan".toList]

/-- A float in range. -/
def isFloat (text : List Char) : Bool :=
  floatWords.contains (cutSign text).2 ||
    match fraction? text with
    | some fraction => !fraction.overflows
    | none => false

/-! ## Moments -/

/-- Exactly `count` digits at the start of `text`: their number and what follows. -/
def fixedDigits? (count : Nat) (text : List Char) : Option (Nat × List Char) :=
  let digits := text.take count
  if digits.length = count && digits.all Char.isDigit then
    some (numberOf 10 digits, text.drop count)
  else none

/-- The number of days of a month. -/
def daysIn (year month : Nat) : Nat :=
  let leap := year % 4 = 0 && (year % 100 ≠ 0 || year % 400 = 0)
  if month = 2 then if leap then 29 else 28
  else if [4, 6, 9, 11].contains month then 30
  else 31

/-- What follows a date at the start of `text`. -/
def date? (text : List Char) : Option (List Char) := do
  let (year, text) ← fixedDigits? 4 text
  let (month, text) ← fixedDigits? 2 (← Text.chop? ['-'] text)
  let (day, text) ← fixedDigits? 2 (← Text.chop? ['-'] text)
  if 1 ≤ month && month ≤ 12 && 1 ≤ day && day ≤ daysIn year month then some text else none

/-- What follows a time at the start of `text`. The seconds may be left out. -/
def time? (text : List Char) : Option (List Char) := do
  let (hour, text) ← fixedDigits? 2 text
  let (minute, text) ← fixedDigits? 2 (← Text.chop? [':'] text)
  if 23 < hour || 59 < minute then none
  else
    match text with
    | ':' :: text =>
      let (second, text) ← fixedDigits? 2 text
      if 60 < second then none
      else
        match text with
        | '.' :: places =>
          if (places.head?.map Char.isDigit).getD false then
            some (places.dropWhile Char.isDigit)
          else none
        | text => some text
    | text => some text

/-- What follows an offset from universal time at the start of `text`. -/
def offset? (text : List Char) : Option (List Char) :=
  match text with
  | 'Z' :: rest => some rest
  | 'z' :: rest => some rest
  | text =>
    match cutSign text with
    | (some _, text) => do
      let (hour, text) ← fixedDigits? 2 text
      let (minute, text) ← fixedDigits? 2 (← Text.chop? [':'] text)
      if hour ≤ 24 && minute ≤ 59 then some text else none
    | (none, _) => none

/-- The mark between a date and a time. -/
def isTimeMark (c : Char) : Bool := c = 'T' || c = 't' || c = ' '

/-- A date, a time, or both, with or without an offset. -/
def isMoment (text : List Char) : Bool :=
  match date? text with
  | some [] => true
  | some (mark :: rest) =>
    isTimeMark mark &&
      match time? rest with
      | some [] => true
      | some rest => offset? rest = some []
      | none => false
  | none => time? text = some []

/-! ## All of them -/

/-- The value that is written `text`. -/
def scalar? (text : List Char) : Option Value :=
  if text = "true".toList then some (.boolean true)
  else if text = "false".toList then some (.boolean false)
  else
    match integer? text with
    | some n => some (.integer n)
    | none =>
      if isFloat text then some (.float text)
      else if isMoment text then some (.moment text)
      else none

end SmaliSieve.Toml
