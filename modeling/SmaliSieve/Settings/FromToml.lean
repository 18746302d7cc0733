/-
  SmaliSieve.Settings.FromToml

  Settings from a TOML document. A mode is given by its name or as a table with the name
  as its only key and nothing in it.
-/

import SmaliSieve.Settings.Basic
import SmaliSieve.Toml.Document

namespace SmaliSieve.Settings

open Toml (Value)

/-- A value that holds nothing. -/
def holdsNothing : Value → Bool
  | .table [] => true
  | .array [] => true
  | _ => false

/-- The values of TOML. -/
def tomlFormat : Format Value where
  text?
    | .string chars => some (String.ofList chars)
    | _ => none
  flag?
    | .boolean b => some b
    | _ => none
  mode?
    | .string chars => modes.lookup (String.ofList chars)
    | .table [(name, content)] =>
      if holdsNothing content then modes.lookup (String.ofList name) else none
    | _ => none

/-- The settings in a TOML document. -/
def ofToml? (document : String) : Option Settings := do
  let table ← Toml.parse? document
  ofEntries? tomlFormat (table.map fun entry => (String.ofList entry.1, entry.2))

end SmaliSieve.Settings
