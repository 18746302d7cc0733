/-
  SmaliSieve.Namespace.PrefixList

  Lists of namespaces, one to a line. Lines are trimmed and blank ones dropped, since an
  empty entry would cover every class. Order and repetitions are kept.
-/

import SmaliSieve.Namespace.Matching
import SmaliSieve.Text.Blank
import SmaliSieve.Text.Lines

namespace SmaliSieve.Namespace

/-- A list of namespaces. -/
structure PrefixList where
  entries : List String
  deriving DecidableEq, Repr, Inhabited

namespace PrefixList

/-- The list without entries. -/
def empty : PrefixList := ⟨[]⟩

/-- The entry that a line holds, if it is not blank. -/
def entryOf? (line : List Char) : Option String :=
  let entry := Text.trim line
  if entry.isEmpty then none else some (String.ofList entry)

/-- The entries of the given lines. -/
def ofLines (lines : List String) : PrefixList :=
  ⟨lines.filterMap fun line => entryOf? line.toList⟩

/-- The entries of the lines of `text`. -/
def parse (text : String) : PrefixList :=
  ⟨(Text.lines text.toList).filterMap entryOf?⟩

/-- There is no entry. -/
def isEmpty (list : PrefixList) : Bool := list.entries.isEmpty

/-- The number of entries. -/
def length (list : PrefixList) : Nat := list.entries.length

/-- The name lies in one of the namespaces. -/
def coversAny (list : PrefixList) (mode : Mode) (name : String) : Bool :=
  list.entries.any (mode.covers name)

end PrefixList

end SmaliSieve.Namespace
