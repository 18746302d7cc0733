/-
  SmaliSieve.Namespace.Matching

  When a dotted name lies in a namespace. In plain mode a namespace is a piece of text
  that the name starts with, so `com.appx.Evil` lies in `com.app`. In segment mode the
  parts between the dots are compared one by one, so it does not; dots at the end of
  the namespace do not count.
-/

import SmaliSieve.Text.Blank
import SmaliSieve.Text.Lines
import SmaliSieve.Text.Search

namespace SmaliSieve.Namespace

/-- How names are compared with namespaces. -/
inductive Mode where
  /-- The name starts with the text of the namespace. -/
  | plain
  /-- The dotted parts of the name start with those of the namespace. -/
  | segment
  deriving DecidableEq, Repr

/-- The parts between the dots of a name. -/
def parts (name : List Char) : List (List Char) :=
  Text.segments '.' name

/-- A namespace without the dots at its end. -/
def withoutEndDots (space : List Char) : List Char :=
  Text.dropEndWhile (· = '.') space

/-- The name lies in the namespace. -/
def Mode.covers (mode : Mode) (name space : String) : Bool :=
  match mode with
  | plain => Text.startsWith name.toList space.toList
  | segment => (parts (withoutEndDots space.toList)).isPrefixOf (parts name.toList)

theorem plain_covers_iff {name space : String} :
    Mode.plain.covers name space = true ↔ space.toList <+: name.toList := by
  rw [Mode.covers, Text.startsWith, Option.isSome_iff_exists]
  constructor
  · rintro ⟨rest, h⟩
    exact ⟨rest, (Text.chop?_eq_some_iff.1 h).symm⟩
  · rintro ⟨rest, h⟩
    exact ⟨rest, Text.chop?_eq_some_iff.2 h.symm⟩

theorem segment_covers_iff {name space : String} :
    Mode.segment.covers name space = true ↔
      parts (withoutEndDots space.toList) <+: parts name.toList := by
  simp [Mode.covers, List.isPrefixOf_iff_prefix]

end SmaliSieve.Namespace
