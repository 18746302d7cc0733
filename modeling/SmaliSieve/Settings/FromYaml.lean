/-
  SmaliSieve.Settings.FromYaml

  Settings from a YAML document, which is a mapping or nothing at all. Every scalar is a
  text, however it is written, but a flag has to be written plainly. A mode is given by
  its name or as a tag with nothing behind it.
-/

import SmaliSieve.Settings.Basic
import SmaliSieve.Yaml.Anchor

namespace SmaliSieve.Settings

open Yaml (Event Style)

/-- The spellings of flags. -/
def flagWords : List (String × Bool) :=
  [("true", true), ("True", true), ("TRUE", true), ("false", false), ("False", false),
   ("FALSE", false)]

/-- The spellings of nothing. -/
def nullWords : List String := ["", "~", "null", "Null", "NULL"]

/-- The tag of flags. -/
def flagTag : List Char := "tag:yaml.org,2002:bool".toList

/-- The scalar may be read as a flag. -/
def mayBeFlag (properties : Yaml.Properties) (style : Style) : Bool :=
  style = .plain || (style = .literal && properties.tag = some flagTag)

/-- The name behind the `!` of a tag of the document's own. -/
def ownTag? : Option (List Char) → Option String
  | some ('!' :: c :: name) => some (String.ofList (c :: name))
  | _ => none

/-- The tag in front of a node. -/
def tagOf? : Event → Option (List Char)
  | .scalar properties _ _ | .sequenceStart properties | .mappingStart properties =>
    properties.tag
  | _ => none

/-- The first event of a value, which decides what it is. -/
def yamlFormat : Format Event where
  text?
    | .scalar _ _ text => some (String.ofList text)
    | _ => none
  flag?
    | .scalar properties style text =>
      if mayBeFlag properties style then flagWords.lookup (String.ofList text) else none
    | _ => none
  mode? event :=
    match event, ownTag? (tagOf? event) with
    | .scalar _ .plain text, some name =>
      if nullWords.contains (String.ofList text) then modes.lookup name else none
    | .scalar _ _ text, none => modes.lookup (String.ofList text)
    | _, _ => none

/-- The events behind the node that `events` start with, where `depth` collections are
    open. -/
def skipNode : Nat → List Event → List Event
  | _, [] => []
  | depth, event :: rest =>
    match event with
    | .sequenceStart _ | .mappingStart _ => skipNode (depth + 1) rest
    | .sequenceEnd | .mappingEnd => if depth ≤ 1 then rest else skipNode (depth - 1) rest
    | _ => if depth = 0 then rest else skipNode depth rest

/-- The pairs of a mapping, of which there are at most `fuel`, each with the first event
    of its value; `none` if a key is no scalar. -/
def pairs? : Nat → List Event → Option (List (String × Event))
  | 0, _ => none
  | fuel + 1, events =>
    match events with
    | .scalar _ _ key :: value :: rest => do
      return (String.ofList key, value) :: (← pairs? fuel (skipNode 0 (value :: rest)))
    | .mappingEnd :: _ => some []
    | _ => none

/-- The settings in a YAML document. -/
def ofYaml? (document : String) : Option Settings := do
  match ← Yaml.read? document with
  | [] => return usual
  | [.scalar _ .plain []] => return usual
  | .mappingStart _ :: rest => ofEntries? yamlFormat (← pairs? (rest.length + 1) rest)
  | _ => none

end SmaliSieve.Settings
