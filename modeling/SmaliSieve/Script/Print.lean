/-
  SmaliSieve.Script.Print

  What `echo` and `printf` print.
-/

import SmaliSieve.Script.Word

namespace SmaliSieve.Script

/-- The characters that a backslash and a letter stand for. -/
def escapes : List (Char × Char) :=
  [('n', '\n'), ('t', '\t'), ('r', '\r'), ('\\', '\\'), ('a', '\x07'), ('b', '\x08'),
   ('f', '\x0c'), ('v', '\x0b'), ('"', '"')]

/-- A digit of an octal number. -/
def isOctal (c : Char) : Bool := '0' ≤ c && c ≤ '7'

/-- The number written by octal digits. -/
def octalValue (digits : List Char) : Nat :=
  digits.foldl (fun n c => n * 8 + (c.toNat - '0'.toNat)) 0

/-- The character that stands behind a backslash at the start of `text`, and the number
    of characters it is written with. A backslash in front of anything else stands for
    itself. -/
def escapedChar (text : List Char) : Char × Nat :=
  let octal := (text.take 3).takeWhile isOctal
  if !octal.isEmpty then (Char.ofNat (octalValue octal % 256), octal.length)
  else
    match text.head?.bind (escapes.lookup ·) with
    | some c => (c, 1)
    | none => ('\\', 0)

/-- `text` with its escapes resolved; the first `skip` characters belong to an escape
    that is done with. -/
def unescapeFrom : Nat → List Char → List Char
  | _, [] => []
  | skip + 1, _ :: rest => unescapeFrom skip rest
  | 0, c :: rest =>
    if c = '\\' then
      let (char, length) := escapedChar rest
      char :: unescapeFrom length rest
    else c :: unescapeFrom 0 rest

/-- What `echo` prints. -/
def echoText (arguments : List (List Char)) : List Char :=
  match arguments with
  | ['-', 'n'] :: rest => unescapeFrom 0 (Text.joinWith [' '] rest)
  | arguments => unescapeFrom 0 (Text.joinWith [' '] arguments) ++ ['\n']

/-- What one pass over a format prints, and the arguments that are left. -/
def formatOnce : List Char → List (List Char) → List Char × List (List Char)
  | [], arguments => ([], arguments)
  | [c], arguments => ([c], arguments)
  | c :: d :: rest, arguments =>
    if c = '%' then
      if d = '%' then
        let (printed, left) := formatOnce rest arguments
        ('%' :: printed, left)
      else
        let (printed, left) := formatOnce rest (arguments.drop 1)
        let field := arguments.headD (if d = 'd' || d = 'i' then ['0'] else [])
        (field ++ printed, left)
    else
      let (printed, left) := formatOnce (d :: rest) arguments
      (c :: printed, left)

/-- What `printf` prints: the format is used again as long as arguments are left. -/
def formatAll : Nat → List Char → List (List Char) → List Char
  | 0, _, _ => []
  | fuel + 1, format, arguments =>
    let (printed, left) := formatOnce format arguments
    if left.isEmpty || left.length = arguments.length then printed
    else printed ++ formatAll fuel format left

/-- What `printf` prints for the given format and arguments. -/
def formatText (format : List Char) (arguments : List (List Char)) : List Char :=
  formatAll (arguments.length + 1) (unescapeFrom 0 format) arguments

end SmaliSieve.Script
