/-
  SmaliSieve.Toml.Node

  A document while it is put together. A table may be named before it is defined, by a
  header further down (`[a.b]` names `a`) or by a dotted key, and which of these it was
  decides how it may be extended:

    * a table of a header is closed against headers of the same name and dotted keys;
    * a table that only headers further down have named may still get a header;
    * a table of dotted keys may get more dotted keys and deeper headers;
    * a value, be it a table in braces or an array in brackets, stays as it is.
-/

import SmaliSieve.Toml.Value

namespace SmaliSieve.Toml

/-- How a table came to be. -/
inductive Origin where
  /-- By a header of its own. -/
  | header
  /-- By a header further down. -/
  | deeper
  /-- By a dotted key. -/
  | dotted
  deriving DecidableEq, Repr

/-- An entry of a document. -/
inductive Node where
  | value (value : Value)
  | table (origin : Origin) (entries : List (List Char × Node))
  /-- An array of tables, the last one first. -/
  | tables (last : List (List Char × Node)) (before : List (List (List Char × Node)))
  deriving Inhabited

/-- The entries of a table. -/
abbrev Entries := List (List Char × Node)

/-- `entries` with the node of `key` replaced, or added at the end. -/
def put (key : List Char) (node : Node) : Entries → Entries
  | [] => [(key, node)]
  | entry :: rest =>
    if entry.1 = key then (key, node) :: rest else entry :: put key node rest

/-- `entries` changed by `change` at the table that the keys of a header lead to. Of an
    array of tables the last one is meant. -/
def atHeader (change : Entries → Option Entries) : List (List Char) → Entries → Option Entries
  | [], entries => change entries
  | key :: more, entries =>
    match entries.lookup key with
    | none => (atHeader change more []).map fun inner => put key (.table .deeper inner) entries
    | some (.table origin inner) =>
      (atHeader change more inner).map fun inner => put key (.table origin inner) entries
    | some (.tables last before) =>
      (atHeader change more last).map fun last => put key (.tables last before) entries
    | some (.value _) => none

/-- `entries` with a value at the place that a dotted key leads to. All tables on the way
    need to have come from dotted keys, or be new, or lie further up than that. -/
def putDotted (value : Value) : List (List Char) → List Char → Bool → Entries → Option Entries
  | [], key, extensible, entries =>
    if !extensible || (entries.lookup key).isSome then none
    else some (put key (.value value) entries)
  | step :: more, key, _, entries =>
    match entries.lookup step with
    | none =>
      (putDotted value more key true []).map fun inner =>
        put step (.table .dotted inner) entries
    | some (.table origin inner) =>
      -- what a header has defined is closed against dotted keys
      if origin = .header then none
      else
        (putDotted value more key (origin = .dotted) inner).map fun inner =>
          put step (.table origin inner) entries
    | some (.tables last before) =>
      (putDotted value more key false last).map fun last =>
        put step (.tables last before) entries
    | some (.value _) => none

/-- `entries` with `value` under a key that may be dotted. -/
def putKey (value : Value) (key : List (List Char)) (entries : Entries) : Option Entries :=
  match key.getLast? with
  | some last => putDotted value key.dropLast last true entries
  | none => none

/-- `entries` with the table `key` opened by a header of its own. -/
def openTable (key : List Char) (entries : Entries) : Option Entries :=
  match entries.lookup key with
  | none => some (put key (.table .header []) entries)
  -- only a table that no header has defined yet may still get one
  | some (.table .deeper inner) => some (put key (.table .header inner) entries)
  | _ => none

/-- `entries` with one more table in the array of tables `key`. -/
def openElement (key : List Char) (entries : Entries) : Option Entries :=
  match entries.lookup key with
  | none => some (put key (.tables [] []) entries)
  | some (.tables last before) => some (put key (.tables [] (last :: before)) entries)
  | _ => none

mutual

/-- The value that a node is when the document is complete. -/
def Node.seal : Node → Value
  | .value value => value
  | .table _ entries => .table (sealEntries entries)
  | .tables last before => .array (sealTables before ++ [.table (sealEntries last)])

/-- The entries of a complete table. -/
def sealEntries : List (List Char × Node) → List (List Char × Value)
  | [] => []
  | (key, node) :: rest => (key, node.seal) :: sealEntries rest

/-- The tables of a complete array, given last one first. -/
def sealTables : List (List (List Char × Node)) → List Value
  | [] => []
  | entries :: rest => sealTables rest ++ [.table (sealEntries entries)]

end

end SmaliSieve.Toml
