/-
  SmaliSieve.Path.Relative

  A path as seen from one of its ancestors, for display. Whether `base` is an ancestor
  is decided by components; what is shown is the rest of the text as it is written,
  without the idle separators at its ends.
-/

import SmaliSieve.Path.Basic

namespace SmaliSieve.Path

/-- `pieces` without the idle ones at the end. -/
def dropIdleEnd (pieces : List (List Char)) : List (List Char) :=
  (pieces.reverse.dropWhile isIdle).reverse

/-- `pieces` without its first `count` components, the idle pieces in between included. -/
def dropSteps : Nat → List (List Char) → List (List Char)
  | 0, pieces => pieces
  | _ + 1, [] => []
  | count + 1, piece :: rest =>
    if isIdle piece then dropSteps (count + 1) rest else dropSteps count rest

/-- The text of the path behind its first `count` components. -/
def textAfter (path : Path) (count : Nat) : List Char :=
  match path.pieces with
  | [] => []
  | first :: rest =>
    let leads := path.isAbsolute || first = ['.']
    let shown (pieces : List (List Char)) := Text.joinWith ['/'] (dropIdleEnd pieces)
    match count with
    | 0 =>
      if leads then
        match dropIdleEnd rest with
        | [] => if path.isAbsolute then ['/'] else first
        | kept => first ++ '/' :: Text.joinWith ['/'] kept
      else shown (first :: rest)
    | count + 1 =>
      let body := if leads then dropSteps count rest else dropSteps (count + 1) (first :: rest)
      shown (body.dropWhile isIdle)

/-- The path relative to `base`, or the whole path if `base` is not an ancestor. -/
def relativeTo (path base : Path) : String :=
  if base.components.isPrefixOf path.components then
    String.ofList (path.textAfter base.components.length)
  else path.text

end SmaliSieve.Path
