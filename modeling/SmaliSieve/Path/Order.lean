/-
  SmaliSieve.Path.Order

  Paths are ordered by their components: the root comes before a leading `.`, that
  before `..`, that before ordinary names, and names are ordered by code point. So
  `smali/D` comes before `smali-x/D` although `-` comes before `/` as a character.
-/

import SmaliSieve.Path.Basic

namespace SmaliSieve

namespace Component

/-- The place of the kind of component in the order. -/
def rank : Component → Nat
  | .root => 0
  | .here => 1
  | .parent => 2
  | .name _ => 3

/-- The text that decides between two components of one kind. -/
def label : Component → String
  | .name chars => String.ofList chars
  | _ => ""

/-- First by kind, then by name. -/
def order : Component → Component → Ordering :=
  compareLex (compareOn rank) (compareOn label)

end Component

namespace Path

/-- Component by component; a path comes before its continuations. -/
def order (a b : Path) : Ordering :=
  List.compareLex Component.order a.components b.components

end Path

end SmaliSieve
