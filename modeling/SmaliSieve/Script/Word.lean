/-
  SmaliSieve.Script.Word

  Words of a command script and the fields they expand to. A parameter outside quotes is
  cut at white space, one inside double quotes is not, and `"$@"` gives one field for
  each argument.
-/

import SmaliSieve.Text.Lines

namespace SmaliSieve.Script

/-- A piece of a word. -/
inductive Part where
  | literal (chars : List Char) (quoted : Bool)
  /-- The value of a parameter, by name. -/
  | value (name : List Char) (quoted : Bool)
  deriving DecidableEq, Repr

/-- A word as it is written. -/
abbrev Word := List Part

/-- What words are expanded by. -/
structure Frame where
  /-- The name under which the script was started. -/
  program : List Char
  arguments : List (List Char)
  bindings : List (List Char × List Char)
  /-- The status of the last command. -/
  status : Nat
  deriving DecidableEq, Repr

/-- White space that separates fields. -/
def isGap (c : Char) : Bool := c = ' ' || c = '\t' || c = '\n'

/-- The number by which a running script knows itself. -/
def ownNumber : Nat := 1

/-- The digits of a number. -/
def digits (n : Nat) : List Char := (toString n).toList

/-- The value of a parameter: an argument by its place, a special parameter by its sign,
    or a variable. What is not set is empty. -/
def Frame.value (frame : Frame) (name : List Char) : List Char :=
  if name = ['0'] then frame.program
  else if name = ['#'] then digits frame.arguments.length
  else if name = ['?'] then digits frame.status
  else if name = ['$'] then digits ownNumber
  else if name = ['@'] || name = ['*'] then Text.joinWith [' '] frame.arguments
  else if name.all Char.isDigit then
    (frame.arguments[(String.ofList name).toNat?.getD 0 - 1]?).getD []
  else (frame.bindings.lookup name).getD []

/-- Fields under construction: the finished ones, last first, and the open one. -/
structure Fields where
  finished : List (List Char)
  current : Option (List Char)
  deriving DecidableEq, Repr

namespace Fields

/-- `chars` added to the open field, which is opened if need be. -/
def add (fields : Fields) (chars : List Char) : Fields :=
  ⟨fields.finished, some (fields.current.getD [] ++ chars)⟩

/-- The open field finished. -/
def close (fields : Fields) : Fields :=
  ⟨fields.current.toList ++ fields.finished, none⟩

/-- The characters of an unquoted value added, cut at white space. -/
def addCut (fields : Fields) (chars : List Char) : Fields :=
  chars.foldl (fun fields c => if isGap c then fields.close else fields.add [c]) fields

/-- The arguments added, each but the last followed by the end of its field. -/
def addEach (fields : Fields) : List (List Char) → Fields
  | [] => fields
  | [last] => fields.add last
  | first :: rest => (fields.add first).close.addEach rest

/-- One part of a word added. -/
def addPart (frame : Frame) (fields : Fields) : Part → Fields
  | .literal chars quoted => if quoted || !chars.isEmpty then fields.add chars else fields
  | .value name true =>
    if name = ['@'] then fields.addEach frame.arguments else fields.add (frame.value name)
  | .value name false => fields.addCut (frame.value name)

/-- All fields, from first to last. -/
def toList (fields : Fields) : List (List Char) := fields.close.finished.reverse

end Fields

/-- The fields that a word expands to. -/
def Frame.expand (frame : Frame) (word : Word) : List (List Char) :=
  (word.foldl (Fields.addPart frame) ⟨[], none⟩).toList

/-- The fields that some words expand to. -/
def Frame.expandAll (frame : Frame) (words : List Word) : List (List Char) :=
  words.flatMap frame.expand

end SmaliSieve.Script
