/-
  SmaliSieve.Cli.Arguments

  Reading the arguments of the command line, from left to right. The first thing that
  ends the reading decides: a mistake, or the wish for help or the version. An argument
  that starts with a dash is never a value; to give such a value, it is attached to its
  parameter.
-/

import SmaliSieve.Cli.Parameter
import SmaliSieve.Namespace.Matching
import SmaliSieve.Path.Basic
import SmaliSieve.Report.Output

namespace SmaliSieve.Cli

/-- What the command line asks for. -/
structure Arguments where
  path : Option Path
  config : Option Path
  decompiler : Option String
  package : Option String
  libraries : Option Path
  systemLibraries : Option Path
  mode : Option Namespace.Mode
  form : Report.Form
  output : Option Path
  completions : Option String
  /-- The switches that are given. -/
  switches : List Switch
  deriving DecidableEq, Repr

/-- A mistake in the arguments. -/
inductive Misuse where
  /-- There is no such parameter. -/
  | unknown (argument : String)
  /-- A parameter is given twice. -/
  | repeated (name : String)
  /-- A parameter has no value. -/
  | valueMissing (name : String)
  /-- A value is not allowed. -/
  | badValue (name value : String)
  /-- A switch has a value. -/
  | unwantedValue (name : String)
  /-- There is one path too many. -/
  | extraPath (argument : String)
  /-- There is no path. -/
  | pathMissing
  deriving DecidableEq, Repr

/-- The words for a mistake. -/
def Misuse.message : Misuse → String
  | unknown argument => s!"unexpected argument '{argument}' found"
  | repeated name => s!"the argument '--{name}' cannot be used multiple times"
  | valueMissing name => s!"a value is required for '--{name}' but none was supplied"
  | badValue name value => s!"invalid value '{value}' for '--{name}'"
  | unwantedValue name => s!"unexpected value for '--{name}' found; no more were expected"
  | extraPath argument => s!"unexpected argument '{argument}' found"
  | pathMissing => "the following required arguments were not provided: <PATH>"

/-- Why the reading of the arguments ends before the last one. -/
inductive Stop where
  | help
  | version
  | misuse (misuse : Misuse)
  deriving DecidableEq, Repr

namespace Arguments

/-- No arguments. -/
def none : Arguments :=
  ⟨.none, .none, .none, .none, .none, .none, .none, .terminal, .none, .none, []⟩

/-- A switch is given. -/
def has (arguments : Arguments) (switch : Switch) : Bool := arguments.switches.contains switch

/-- The modes by their words. -/
def modeOf? (word : String) : Option Namespace.Mode :=
  if word = "plain" then some .plain else if word = "segment" then some .segment else .none

/-- The forms by their words. -/
def formOf? (word : String) : Option Report.Form :=
  if word = "terminal" then some .terminal else if word = "json" then some .json else .none

/-- A value of this kind may be `value`. -/
def allows (kind : ValueKind) (value : String) : Bool :=
  match kind with
  | .text => true
  | .path => !value.isEmpty
  | .choice words => words.any (·.1 = value)

/-- The arguments with a value given, which its parameter allows. -/
def withValue (arguments : Arguments) (setting : Setting) (value : String) : Arguments :=
  match setting with
  | .config => { arguments with config := some (.ofString value) }
  | .decompiler => { arguments with decompiler := some value }
  | .package => { arguments with package := some value }
  | .libraries => { arguments with libraries := some (.ofString value) }
  | .systemLibraries => { arguments with systemLibraries := some (.ofString value) }
  | .prefixMatch => { arguments with mode := modeOf? value }
  | .form => { arguments with form := (formOf? value).getD .terminal }
  | .output => { arguments with output := some (.ofString value) }
  | .completions => { arguments with completions := some value }

end Arguments

/-- Where the reading of the arguments stands. -/
structure Reading where
  arguments : Arguments
  /-- The parameters that were given. -/
  given : List Role
  /-- The parameter that waits for its value. -/
  waiting : Option Parameter
  /-- Only paths may follow. -/
  pathsOnly : Bool
  deriving DecidableEq, Repr

namespace Reading

/-- Nothing was read. -/
def start : Reading := ⟨.none, [], none, false⟩

/-- Ends the reading with a mistake. -/
def fail {α : Type} (misuse : Misuse) : Except Stop α := .error (.misuse misuse)

/-- No parameter may wait for its value any more. -/
def settle (reading : Reading) : Except Stop Reading :=
  match reading.waiting with
  | some parameter => fail (.valueMissing parameter.long)
  | none => .ok reading

/-- The parameter may not have been given before. -/
def mark (reading : Reading) (parameter : Parameter) : Except Stop Reading :=
  if reading.given.contains parameter.role then fail (.repeated parameter.long)
  else .ok { reading with given := parameter.role :: reading.given }

/-- A value for a parameter. -/
def value (reading : Reading) (parameter : Parameter) (chars : List Char) :
    Except Stop Reading := do
  let text := String.ofList chars
  match parameter.role with
  | .switch _ => fail (.unwantedValue parameter.long)
  | .setting setting =>
    let reading ← reading.mark parameter
    if Arguments.allows parameter.kind text then
      return { reading with
        waiting := none, arguments := reading.arguments.withValue setting text }
    else fail (.badValue parameter.long text)

/-- A parameter without a value, which waits for one if it takes one. -/
def bare (reading : Reading) (parameter : Parameter) : Except Stop Reading :=
  match parameter.role with
  | .setting _ => .ok { reading with waiting := some parameter }
  | .switch .help => .error .help
  | .switch .version => .error .version
  | .switch switch => do
    let reading ← reading.mark parameter
    let arguments :=
      { reading.arguments with switches := switch :: reading.arguments.switches }
    return { reading with arguments := arguments }

/-- An argument behind two dashes. -/
def long (reading : Reading) (body : List Char) : Except Stop Reading := do
  let reading ← reading.settle
  let name := body.takeWhile (· ≠ '=')
  match Parameter.ofLong? name, body.dropWhile (· ≠ '=') with
  | none, _ => fail (.unknown ("--" ++ String.ofList name))
  | some parameter, _ :: chars => reading.value parameter chars
  | some parameter, [] => reading.bare parameter

/-- The letters behind one dash. A letter that takes a value takes the letters behind it,
    with or without an equals sign between. -/
def short (reading : Reading) : List Char → Except Stop Reading
  | [] => .ok reading
  | letter :: rest => do
    let reading ← reading.settle
    match Parameter.ofShort? letter with
    | none => fail (.unknown (String.ofList ['-', letter]))
    | some parameter =>
      if parameter.takesValue then
        match rest with
        | [] => reading.bare parameter
        | '=' :: chars => reading.value parameter chars
        | chars => reading.value parameter chars
      else
        let reading ← reading.bare parameter
        match rest with
        | '=' :: _ => fail (.unwantedValue parameter.long)
        | _ => short reading rest

/-- An argument that belongs to no parameter. -/
def path (reading : Reading) (chars : List Char) : Except Stop Reading := do
  let reading ← reading.settle
  let text := String.ofList chars
  if reading.arguments.path.isSome then fail (.extraPath text)
  else if chars.isEmpty then fail (.badValue "path" text)
  else
    return { reading with arguments := { reading.arguments with path := some ⟨chars⟩ } }

/-- One more argument. -/
def add (reading : Reading) (argument : String) : Except Stop Reading :=
  let chars := argument.toList
  if reading.pathsOnly then reading.path chars
  else
    match chars, reading.waiting with
    | ['-', '-'], _ => .ok { reading with pathsOnly := true }
    | '-' :: '-' :: body, _ => reading.long body
    | '-' :: c :: letters, _ => reading.short (c :: letters)
    | chars, some parameter => reading.value parameter chars
    | chars, none => reading.path chars

/-- The arguments, once all were read. A path is needed, except for completions. -/
def finish (reading : Reading) : Except Stop Arguments := do
  let reading ← reading.settle
  let arguments := reading.arguments
  if arguments.path.isNone && arguments.completions.isNone then fail .pathMissing
  else return arguments

end Reading

/-- What a list of arguments asks for, or why it asks for nothing. -/
def parseArguments (arguments : List String) : Except Stop Arguments := do
  (← arguments.foldlM Reading.add Reading.start).finish

end SmaliSieve.Cli
