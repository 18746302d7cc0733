/-
  SmaliSieve.Path.Basic

  Paths as the text they are written with. Nothing is normalised: `app//smali/./x` is
  printed the way it was put together. What a path *means* is its list of components,
  and two spellings of one list compare as equal wherever order matters.
-/

import SmaliSieve.Text.Lines
import SmaliSieve.Text.Search

namespace SmaliSieve

/-- A path, with the separator `/`. -/
structure Path where
  chars : List Char
  deriving DecidableEq, Repr, Inhabited

/-- One step of a path. -/
inductive Component where
  /-- The start of an absolute path. -/
  | root
  /-- A leading `.`; elsewhere a `.` is no component. -/
  | here
  /-- A `..`, wherever it stands. -/
  | parent
  /-- An ordinary name. -/
  | name (chars : List Char)
  deriving DecidableEq, Repr

namespace Path

/-- The path written `text`. -/
def ofString (text : String) : Path := ⟨text.toList⟩

/-- The text of the path, character for character. -/
def text (path : Path) : String := String.ofList path.chars

/-- The path starts at the root of the file system. -/
def isAbsolute (path : Path) : Bool := path.chars.head? = some '/'

/-- What stands between the separators. -/
def pieces (path : Path) : List (List Char) := Text.segments '/' path.chars

/-- A piece that names no step: nothing between two separators, or a `.`. -/
def isIdle (piece : List Char) : Bool := piece.isEmpty || piece = ['.']

/-- The step that one piece after the start of a path stands for. -/
def stepOf (piece : List Char) : Option Component :=
  if isIdle piece then none
  else if piece = ['.', '.'] then some .parent
  else some (.name piece)

/-- The steps of the path: repeated, trailing and dotted separators leave no trace, and
    only a leading `.` of a relative path is kept. -/
def components (path : Path) : List Component :=
  match path.pieces with
  | [] => []
  | first :: rest =>
    let start :=
      if path.isAbsolute then [Component.root]
      else if first = ['.'] then [Component.here]
      else (stepOf first).toList
    start ++ rest.filterMap stepOf

/-- `path` continued with `tail`. An absolute `tail` replaces the path; otherwise a
    separator is added unless the path is empty or ends with one. An empty `tail` thus
    leaves a trailing separator. -/
def join (path : Path) (tail : List Char) : Path :=
  if tail.head? = some '/' then ⟨tail⟩
  else
    match path.chars.getLast? with
    | none => ⟨tail⟩
    | some '/' => ⟨path.chars ++ tail⟩
    | some _ => ⟨path.chars ++ '/' :: tail⟩

/-- `path` continued with each of `tails` in turn. -/
def joinAll (path : Path) (tails : List (List Char)) : Path :=
  tails.foldl join path

/-- The path with `tail` written right behind it. -/
def append (path : Path) (tail : String) : Path := ⟨path.chars ++ tail.toList⟩

end Path

end SmaliSieve
