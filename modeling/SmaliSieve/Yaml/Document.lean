/-
  SmaliSieve.Yaml.Document

  The single document of a text. Directives stand in front of a document that is opened
  by `---`; without them and without content the text has no document at all.
-/

import SmaliSieve.Yaml.Event
import SmaliSieve.Yaml.Tokens

namespace SmaliSieve.Yaml

/-- The minor versions that are understood, of the major version 1. -/
def minorVersions : List Nat := [1, 2]

/-- The handles that the directives at the start of `tokens` define, and the tokens behind
    them. A handle may be defined once, and the version given once. -/
def directives? : Bool → Handles → List Token → Option (Handles × List Token)
  | versioned, handles, .versionDirective major minor :: rest =>
    if versioned || major ≠ 1 || !minorVersions.contains minor then none
    else directives? true handles rest
  | versioned, handles, .tagDirective handle stem :: rest =>
    if (handles.lookup handle).isSome then none
    else directives? versioned (handles ++ [(handle, stem)]) rest
  | _, handles, tokens => some (handles ++ commonHandles, tokens)

/-- The events of the document that the tokens hold, no events if there is no document.
    There may not be two. -/
def ofTokens? (tokens : List Token) : Option (List Event) := do
  let fuel := 3 * tokens.length + 3
  let edges := [Token.documentStart, .documentEnd, .streamEnd]
  match tokens with
  | [.streamEnd] => return []
  | tokens =>
    let (handles, rest) ← directives? false [] tokens
    let opened := rest.length < tokens.length
    let (events, rest) ←
      match rest with
      | .documentStart :: rest =>
        let directiveAhead := match rest with
          | .versionDirective .. :: _ | .tagDirective .. :: _ => true
          | _ => false
        if directiveAhead || stopsAt edges rest then some (emptyNode, rest)
        else node handles fuel .block rest
      | rest => if opened then none else node handles fuel .block rest
    match rest.dropWhile (· = .documentEnd) with
    | [.streamEnd] => return events
    | _ => none

/-- The events of the document in `text`, if `text` is YAML with at most one document. -/
def parse? (text : String) : Option (List Event) :=
  (tokens? text).bind ofTokens?

end SmaliSieve.Yaml
