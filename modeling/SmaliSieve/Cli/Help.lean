/-
  SmaliSieve.Cli.Help

  The help text.
-/

import SmaliSieve.Cli.Parameter
import SmaliSieve.Report.Document
import SmaliSieve.Report.Style

namespace SmaliSieve.Cli

open Report (padRight unlines)

/-- What the program does, in one line. -/
def about : String :=
  "smalisift - organize decompiled smali into classes and methods, minus library code"

/-- How the program is called. -/
def usage : String := "Usage: smalisift [OPTIONS] [PATH]"

/-- The names of a parameter as the help text shows them. -/
def helpNames (parameter : Parameter) : String :=
  let start := match parameter.short with
    | some letter => String.ofList ['-', letter, ',', ' ']
    | none => "    "
  let value := if parameter.takesValue then s!" <{parameter.valueName}>" else ""
  start ++ "--" ++ parameter.long ++ value

/-- What the help text says about a parameter. -/
def helpAbout (parameter : Parameter) : String :=
  let usual := if parameter.role = .setting .form then " [default: terminal]" else ""
  let words := ", ".intercalate (parameter.words.map (·.1))
  let values := if words.isEmpty then "" else s!" [possible values: {words}]"
  parameter.about ++ usual ++ values

/-- The width of the column with the names. -/
def helpWidth : Nat :=
  (parameters.map fun parameter => (helpNames parameter).length).foldl max 0

/-- The help text. -/
def helpText : String :=
  unlines <|
    [about, "", usage, "", "Arguments:", s!"  [PATH]  {Parameter.pathAbout}", "", "Options:"]
      ++ parameters.map fun parameter =>
        "  " ++ padRight helpWidth (helpNames parameter) ++ "  " ++ helpAbout parameter

/-- The version text. -/
def versionText : String := s!"{Parameter.program} {Report.version}\n"

end SmaliSieve.Cli
