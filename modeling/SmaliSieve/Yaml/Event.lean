/-
  SmaliSieve.Yaml.Event

  From tokens to the nodes of a document, written down as a list of events: a scalar is
  one event, a collection the events of its members between a start and an end. A member
  that is left out is an empty plain scalar.
-/

import SmaliSieve.Yaml.Token

namespace SmaliSieve.Yaml

/-- What may stand in front of a node. -/
structure Properties where
  anchor : Option (List Char)
  tag : Option (List Char)
  deriving DecidableEq, Repr

/-- Nothing in front of a node. -/
def Properties.none : Properties := ⟨.none, .none⟩

/-- A piece of a document. -/
inductive Event where
  | alias (name : List Char)
  | scalar (properties : Properties) (style : Style) (text : List Char)
  | sequenceStart (properties : Properties)
  | sequenceEnd
  | mappingStart (properties : Properties)
  | mappingEnd
  deriving DecidableEq, Repr

/-- The node that stands for one that is left out. -/
def emptyNode : List Event := [.scalar .none .plain []]

/-- Tag handles and what they stand for. -/
abbrev Handles := List (List Char × List Char)

/-- The handles that need no directive. -/
def commonHandles : Handles :=
  [(['!'], ['!']), (['!', '!'], "tag:yaml.org,2002:".toList)]

/-- The tag that a handle and a suffix stand for. -/
def resolveTag (handles : Handles) (handle suffix : List Char) : Option (List Char) :=
  if handle.isEmpty then some suffix else (handles.lookup handle).map (· ++ suffix)

/-- The anchor and the tag in front of a node, in either order, and the tokens behind
    them; the outer `none` says that a handle is not known. -/
def properties? (handles : Handles) (tokens : List Token) :
    Option (Properties × List Token) :=
  let tagged (anchor : Option (List Char)) (handle suffix : List Char)
      (rest : List Token) : Option (Properties × List Token) :=
    (resolveTag handles handle suffix).map fun tag => (⟨anchor, some tag⟩, rest)
  match tokens with
  | .anchor name :: .tag handle suffix :: rest => tagged (some name) handle suffix rest
  | .anchor name :: rest => some (⟨some name, .none⟩, rest)
  | .tag handle suffix :: .anchor name :: rest => tagged (some name) handle suffix rest
  | .tag handle suffix :: rest => tagged .none handle suffix rest
  | tokens => some (.none, tokens)

/-- Where a node stands, which decides what may stand there. -/
inductive Setting where
  /-- In a flow collection. -/
  | flow
  /-- In a block sequence or at the top of a document. -/
  | block
  /-- In a block mapping, where the items of a sequence need not be indented. -/
  | mapping
  deriving DecidableEq, Repr

/-- Some events and the tokens behind those they come from. -/
abbrev Step := Option (List Event × List Token)

/-- The token that comes first is one of `stops`. -/
def stopsAt (stops : List Token) (tokens : List Token) : Bool :=
  (tokens.head?.map stops.contains).getD true

mutual

/-- One node. -/
def node (handles : Handles) : Nat → Setting → List Token → Step
  | 0, _, _ => none
  | fuel + 1, setting, tokens =>
    match tokens with
    | .alias name :: rest => some ([.alias name], rest)
    | tokens => do
      let (properties, tokens) ← properties? handles tokens
      let enclosed (first last : Event) (inner : Step) : Step :=
        inner.map fun read => (first :: read.1 ++ [last], read.2)
      match tokens with
      | .scalar style text :: rest => some ([.scalar properties style text], rest)
      | .flowSequenceStart :: rest =>
        enclosed (.sequenceStart properties) .sequenceEnd (flowItems handles fuel true rest)
      | .flowMappingStart :: rest =>
        enclosed (.mappingStart properties) .mappingEnd (flowPairs handles fuel true rest)
      | .blockSequenceStart :: rest =>
        if setting = .flow then none
        else enclosed (.sequenceStart properties) .sequenceEnd (blockItems handles fuel rest)
      | .blockMappingStart :: rest =>
        if setting = .flow then none
        else enclosed (.mappingStart properties) .mappingEnd (blockPairs handles fuel rest)
      | tokens =>
        if setting = .mapping && tokens.head? = some .blockEntry then
          enclosed (.sequenceStart properties) .sequenceEnd (looseItems handles fuel tokens)
        else if properties = .none then none
        else some ([.scalar properties .plain []], tokens)

/-- A node, or the empty node in front of one of `stops`. -/
def nodeOrEmpty (handles : Handles) : Nat → Setting → List Token → List Token → Step
  | 0, _, _, _ => none
  | fuel + 1, setting, stops, tokens =>
    if stopsAt stops tokens then some (emptyNode, tokens)
    else node handles fuel setting tokens

/-- The items of a block sequence, up to and including its end. -/
def blockItems (handles : Handles) : Nat → List Token → Step
  | 0, _ => none
  | fuel + 1, tokens =>
    match tokens with
    | .blockEnd :: rest => some ([], rest)
    | .blockEntry :: rest => do
      let (item, rest) ← nodeOrEmpty handles fuel .block [.blockEntry, .blockEnd] rest
      let (items, rest) ← blockItems handles fuel rest
      return (item ++ items, rest)
    | _ => none

/-- The items of a sequence that is not indented, as long as there are dashes. -/
def looseItems (handles : Handles) : Nat → List Token → Step
  | 0, _ => none
  | fuel + 1, tokens =>
    match tokens with
    | .blockEntry :: rest => do
      let stops := [.blockEntry, .key, .value, .blockEnd]
      let (item, rest) ← nodeOrEmpty handles fuel .block stops rest
      let (items, rest) ← looseItems handles fuel rest
      return (item ++ items, rest)
    | tokens => some ([], tokens)

/-- The pairs of a block mapping, up to and including its end. -/
def blockPairs (handles : Handles) : Nat → List Token → Step
  | 0, _ => none
  | fuel + 1, tokens =>
    let stops := [Token.key, .value, .blockEnd]
    match tokens with
    | .blockEnd :: rest => some ([], rest)
    | .key :: rest => do
      let (key, rest) ← nodeOrEmpty handles fuel .mapping stops rest
      let (value, rest) ←
        match rest with
        | .value :: rest => nodeOrEmpty handles fuel .mapping stops rest
        | rest => some (emptyNode, rest)
      let (pairs, rest) ← blockPairs handles fuel rest
      return (key ++ value ++ pairs, rest)
    | _ => none

/-- The items of a flow sequence, up to and including its end. A pair in it is a mapping
    of its own. -/
def flowItems (handles : Handles) : Nat → Bool → List Token → Step
  | 0, _, _ => none
  | fuel + 1, first, tokens =>
    match tokens with
    | .flowSequenceEnd :: rest => some ([], rest)
    | tokens => do
      let tokens ←
        if first then some tokens
        else if tokens.head? = some .flowEntry then some (tokens.drop 1)
        else none
      match tokens with
      | .flowSequenceEnd :: rest => return ([], rest)
      | .key :: rest =>
        let (pair, rest) ← singlePair handles fuel rest
        let (items, rest) ← flowItems handles fuel false rest
        return (.mappingStart .none :: pair ++ .mappingEnd :: items, rest)
      | tokens =>
        let (item, rest) ← node handles fuel .flow tokens
        let (items, rest) ← flowItems handles fuel false rest
        return (item ++ items, rest)

/-- The pair that is an item of a flow sequence. Where its key is left out, the token in
    its place is passed over. -/
def singlePair (handles : Handles) : Nat → List Token → Step
  | 0, _ => none
  | fuel + 1, tokens => do
    let (key, rest) ←
      if stopsAt [.value, .flowEntry, .flowSequenceEnd] tokens then
        some (emptyNode, tokens.drop 1)
      else node handles fuel .flow tokens
    match rest with
    | .value :: rest =>
      let (value, rest) ← nodeOrEmpty handles fuel .flow [.flowEntry, .flowSequenceEnd] rest
      return (key ++ value, rest)
    | rest => return (key ++ emptyNode, rest)

/-- The pairs of a flow mapping, up to and including its end. A key without a value has
    the empty one. -/
def flowPairs (handles : Handles) : Nat → Bool → List Token → Step
  | 0, _, _ => none
  | fuel + 1, first, tokens =>
    match tokens with
    | .flowMappingEnd :: rest => some ([], rest)
    | tokens => do
      let tokens ←
        if first then some tokens
        else if tokens.head? = some .flowEntry then some (tokens.drop 1)
        else none
      match tokens with
      | .flowMappingEnd :: rest => return ([], rest)
      | .key :: rest =>
        let stops := [.value, .flowEntry, .flowMappingEnd]
        let (key, rest) ← nodeOrEmpty handles fuel .flow stops rest
        let (value, rest) ←
          match rest with
          | .value :: rest =>
            nodeOrEmpty handles fuel .flow [.flowEntry, .flowMappingEnd] rest
          | rest => some (emptyNode, rest)
        let (pairs, rest) ← flowPairs handles fuel false rest
        return (key ++ value ++ pairs, rest)
      | tokens =>
        let (key, rest) ← node handles fuel .flow tokens
        let (pairs, rest) ← flowPairs handles fuel false rest
        return (key ++ emptyNode ++ pairs, rest)

end

end SmaliSieve.Yaml
