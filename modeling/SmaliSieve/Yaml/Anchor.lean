/-
  SmaliSieve.Yaml.Anchor

  Aliases and what they refer to. An anchor gets as its number the count of the distinct
  names anchored before it. An alias takes the number that its name has where the alias
  stands, and refers to the last node with that number: usually the node that was
  anchored, but a name that is anchored twice shares its number with the next new name.
-/

import SmaliSieve.Yaml.Document

namespace SmaliSieve.Yaml

/-- The anchors met so far. -/
structure Anchors where
  /-- The number of each name. -/
  numbers : List (List Char × Nat)
  /-- The nodes by number, the last one first. -/
  nodes : List (Nat × Event)
  deriving DecidableEq, Repr

namespace Anchors

/-- No anchors. -/
def empty : Anchors := ⟨[], []⟩

/-- The name of the anchor of a node. -/
def anchorOf? : Event → Option (List Char)
  | .scalar properties _ _ | .sequenceStart properties | .mappingStart properties =>
    properties.anchor
  | _ => none

/-- The anchors with those of one more event. -/
def add (anchors : Anchors) (event : Event) : Anchors :=
  match anchorOf? event with
  | none => anchors
  | some name =>
    let number := anchors.numbers.length
    ⟨(name, number) :: anchors.numbers.filter (·.1 ≠ name), (number, event) :: anchors.nodes⟩

end Anchors

/-- The number that each event refers to, if it is an alias; `none` if the name of one is
    not anchored in front of it. -/
def references? : Anchors → List Event → Option (List (Option Nat))
  | _, [] => some []
  | anchors, event :: rest => do
    let reference ← match event with
      | .alias name => (anchors.numbers.lookup name).map some
      | _ => some none
    return reference :: (← references? (anchors.add event) rest)

/-- The events with each alias that refers to a scalar replaced by that scalar; `none` if
    an alias refers to nothing. -/
def resolveAliases (events : List Event) : Option (List Event) := do
  let references ← references? .empty events
  let nodes := (events.foldl Anchors.add .empty).nodes
  return (events.zip references).map fun (event, reference) =>
    match reference.bind fun number => nodes.lookup number with
    | some (.scalar properties style text) => .scalar properties style text
    | _ => event

/-- The events of the document in `text`, its aliases resolved. -/
def read? (text : String) : Option (List Event) :=
  (parse? text).bind resolveAliases

end SmaliSieve.Yaml
