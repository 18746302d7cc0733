/-
  SmaliSieve.Settings.Basic

  The settings of the program, and how they are put together from the entries of a
  settings file. The formats differ in what they accept as a text, a flag or a mode; all
  else is the same for both.
-/

import SmaliSieve.Namespace.Matching
import SmaliSieve.Path.Basic

namespace SmaliSieve

/-- The settings. -/
structure Settings where
  /-- What the names of disassembly roots start with. -/
  marker : String
  /-- The extension of disassembly files, without the dot. -/
  extension : String
  /-- The list of third-party libraries. -/
  libraries : Path
  /-- The list of system libraries. -/
  systemLibraries : Path
  /-- The program that decompiles archives. -/
  decompiler : String
  /-- How class names are compared with the lists. -/
  mode : Namespace.Mode
  /-- Methods are looked for in parallel. -/
  parallel : Bool
  deriving DecidableEq, Repr

namespace Settings

/-- The settings that hold unless something else is said. -/
def usual : Settings where
  marker := "smali"
  extension := "smali"
  libraries := .ofString "Libraries/AndroidLibraries.txt"
  systemLibraries := .ofString "Libraries/SystemLibraries.txt"
  decompiler := "apktool"
  mode := .plain
  parallel := false

/-- The names of the modes. -/
def modes : List (String × Namespace.Mode) := [("plain", .plain), ("segment", .segment)]

/-- How the values of a format are read; each gives nothing for a value of another
    kind. -/
structure Format (α : Type) where
  text? : α → Option String
  flag? : α → Option Bool
  mode? : α → Option Namespace.Mode

/-- The settings with one of them given by its name and a value of some format; names
    that mean nothing are left alone. `none` if the value is of the wrong kind. -/
def assign? {α : Type} (format : Format α) (settings : Settings) (name : String) (value : α) :
    Option Settings :=
  match name with
  | "disassembly_prefix" => (format.text? value).map ({ settings with marker := · })
  | "source_extension" => (format.text? value).map ({ settings with extension := · })
  | "libraries" =>
    (format.text? value).map fun text => { settings with libraries := .ofString text }
  | "system_libraries" =>
    (format.text? value).map fun text => { settings with systemLibraries := .ofString text }
  | "decompiler" => (format.text? value).map ({ settings with decompiler := · })
  | "prefix_match" => (format.mode? value).map ({ settings with mode := · })
  | "parallel" => (format.flag? value).map ({ settings with parallel := · })
  | _ => some settings

/-- The names of the settings in a file. -/
def names : List String :=
  ["disassembly_prefix", "source_extension", "libraries", "system_libraries", "decompiler",
   "prefix_match", "parallel"]

/-- No setting is given twice. -/
def distinct (given : List String) : Bool :=
  names.all fun name => given.count name ≤ 1

/-- The usual settings with the given entries in place of some. -/
def ofEntries? {α : Type} (format : Format α) (entries : List (String × α)) :
    Option Settings :=
  if distinct (entries.map (·.1)) then
    entries.foldlM (fun settings entry => settings.assign? format entry.1 entry.2) usual
  else none

end Settings

end SmaliSieve
