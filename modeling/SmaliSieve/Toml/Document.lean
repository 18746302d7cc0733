/-
  SmaliSieve.Toml.Document

  Whole documents, line by line. A line holds a key with its value, the header of a
  table, `[a.b]`, or of one more table in an array, `[[a.b]]`, or nothing.
-/

import SmaliSieve.Toml.Reader

namespace SmaliSieve.Toml

/-- A document that is read up to some line. -/
structure Draft where
  entries : Entries
  /-- The header that is in force. -/
  header : List (List Char)

/-- The draft with a header added. -/
def Draft.openHeader (draft : Draft) (key : List (List Char))
    (change : List Char → Entries → Option Entries) : Option Draft := do
  let last ← key.getLast?
  let entries ← atHeader (change last) key.dropLast draft.entries
  return ⟨entries, key⟩

/-- The draft with the line that starts at `text`, and the text behind that line. -/
def Draft.line? (draft : Draft) (text : List Char) : Option (Draft × List Char) := do
  match skipBlanks text with
  | '[' :: '[' :: text =>
    let (key, rest) ← key? text
    let rest ← Text.chop? [']', ']'] rest
    return (← draft.openHeader key openElement, ← endLine? rest)
  | '[' :: text =>
    let (key, rest) ← key? text
    let rest ← Text.chop? [']'] rest
    return (← draft.openHeader key openTable, ← endLine? rest)
  | text =>
    match endLine? text with
    | some rest => return (draft, rest)
    | none =>
      let (key, value, rest) ← pair? text
      let entries ← atHeader (putKey value key) draft.header draft.entries
      return (⟨entries, draft.header⟩, ← endLine? rest)

/-- The draft with all lines of `text`, of which there are at most `fuel`. -/
def Draft.lines? : Nat → Draft → List Char → Option Draft
  | _, draft, [] => some draft
  | 0, _, _ :: _ => none
  | fuel + 1, draft, text => do
    let (draft, rest) ← draft.line? text
    lines? fuel draft rest

/-- The table that a document is, if it is one. A byte order mark may stand in front. -/
def parse? (document : String) : Option Table := do
  let text := match document.toList with
    | '\uFEFF' :: rest => rest
    | text => text
  let draft ← Draft.lines? text.length ⟨[], []⟩ text
  return sealEntries draft.entries

end SmaliSieve.Toml
