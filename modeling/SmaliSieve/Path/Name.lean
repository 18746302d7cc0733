/-
  SmaliSieve.Path.Name

  The last component of a path and its extension.

  An extension is what follows the last dot of the name, unless that dot opens the name:
  `.profile` has none and `a.tar.gz` has `gz`. Trailing separators and trailing `/.` are
  no part of the name, but they are part of the text, so replacing an extension has to
  find where in the text the name stands (`splitName?`).
-/

import SmaliSieve.Path.Basic

namespace SmaliSieve.Path

/-- The name cut at its last dot: the stem and, if there is such a dot and it does not
    open the name, the extension. -/
def splitExtension (name : List Char) : List Char × Option (List Char) :=
  let after := (name.reverse.takeWhile (· ≠ '.')).reverse
  let before := name.take (name.length - after.length - 1)
  if after.length = name.length || before.isEmpty then (name, none) else (before, some after)

/-- The text in front of the last component and that component itself, if it is an
    ordinary name. What follows the name in the text, idle separators, is dropped. -/
def splitName? (path : Path) : Option (List Char × List Char) :=
  match path.pieces.reverse.dropWhile isIdle with
  | [] => none
  | name :: before =>
    if name = ['.', '.'] then none
    else some (before.reverse.flatMap (· ++ ['/']), name)

/-- The last component, if it is an ordinary name. -/
def fileName? (path : Path) : Option (List Char) :=
  path.splitName?.map (·.2)

/-- The extension of the last component. -/
def extension? (path : Path) : Option (List Char) :=
  path.fileName?.bind fun name => (splitExtension name).2

/-- An extension that would not stay inside the last component. -/
def breaksName (extension : List Char) : Bool := extension.contains '/'

/-- The path with the extension of its last component replaced by `extension`, or removed
    if that is empty. A path without an ordinary last component stays as it is. There is
    no result for an extension that holds a separator. -/
def withExtension? (path : Path) (extension : List Char) : Option Path :=
  if breaksName extension then none
  else
    match path.splitName? with
    | none => some path
    | some (front, name) =>
      let suffix := if extension.isEmpty then [] else '.' :: extension
      some ⟨front ++ (splitExtension name).1 ++ suffix⟩

/-- The path without the extension of its last component. As many characters as the
    extension has are taken off the end of the text first, trailing separators included,
    so a name that then consists of dots only is left with them. -/
def dropExtension (path : Path) : Path :=
  match path.extension? with
  | none => path
  | some extension =>
    let shorter : Path := ⟨path.chars.take (path.chars.length - extension.length)⟩
    (shorter.withExtension? []).getD shorter

end SmaliSieve.Path
