/-
  SmaliSieve.Toml.Value

  Values of a TOML document. A number that is not an integer and a moment in time are
  kept as they are written.
-/

namespace SmaliSieve.Toml

/-- A value. The entries of a table stand in the order in which they were first named. -/
inductive Value where
  | string (chars : List Char)
  | integer (n : Int)
  | float (written : List Char)
  | boolean (b : Bool)
  | moment (written : List Char)
  | array (items : List Value)
  | table (entries : List (List Char × Value))
  deriving Repr, Inhabited

/-- A table by its entries. -/
abbrev Table := List (List Char × Value)

end SmaliSieve.Toml
