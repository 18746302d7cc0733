/-
  SmaliSieve.Cli.Parameter

  The parameters of the command line: what they are called, what they take and what they
  are for. Reading arguments, the help text and the completion scripts all go by this one
  table.
-/

namespace SmaliSieve.Cli

/-- A parameter that is given or not. -/
inductive Switch where
  | parallel
  | listFiles
  | listAllFiles
  | showMethods
  | deleteArchive
  | cleanup
  | yes
  | verbose
  | quiet
  | help
  | version
  deriving DecidableEq, Repr

/-- A parameter that takes a value. -/
inductive Setting where
  | config
  | decompiler
  | package
  | libraries
  | systemLibraries
  | prefixMatch
  | form
  | output
  | completions
  deriving DecidableEq, Repr

/-- What a parameter is. -/
inductive Role where
  | switch (switch : Switch)
  | setting (setting : Setting)
  deriving DecidableEq, Repr

/-- What a value has to be. -/
inductive ValueKind where
  /-- Any text. -/
  | text
  /-- Any text but the empty one. -/
  | path
  /-- One of some words, each with what it means. -/
  | choice (words : List (String × String))
  deriving DecidableEq, Repr

/-- A parameter with all that is known about it. -/
structure Parameter where
  role : Role
  long : String
  short : Option Char
  /-- What the value is called in the help text. -/
  valueName : String
  kind : ValueKind
  about : String
  deriving DecidableEq, Repr

/-- A switch. -/
def switchOf (switch : Switch) (long : String) (short : Option Char) (about : String) :
    Parameter :=
  ⟨.switch switch, long, short, "", .text, about⟩

/-- A parameter with a value. -/
def settingOf (setting : Setting) (long : String) (short : Option Char) (valueName : String)
    (kind : ValueKind) (about : String) : Parameter :=
  ⟨.setting setting, long, short, valueName, kind, about⟩

/-- The ways to compare names. -/
def modeWords : List (String × String) :=
  [("plain", "Plain string prefix: `com.appx.Evil` matches `com.app`"),
   ("segment", "Whole dot-separated segments: `com.appx.Evil` does not match `com.app`")]

/-- The forms of a report. -/
def formWords : List (String × String) := [("terminal", ""), ("json", "")]

/-- The shells that completion scripts are made for. -/
def shellWords : List (String × String) :=
  [("bash", ""), ("elvish", ""), ("fish", ""), ("powershell", ""), ("zsh", "")]

/-- The parameters, in the order in which they are listed. -/
def parameters : List Parameter :=
  [settingOf .config "config" (some 'c') "CONFIG" .path "Path to configuration file",
   settingOf .decompiler "decompiler" none "BIN" .text
    "Decompiler executable (default: apktool)",
   settingOf .package "package" none "PACKAGE" .text
    "Application package to keep, instead of reading it from the manifest",
   settingOf .libraries "libraries" none "FILE" .path
    "Third-party library prefix list (one prefix per line)",
   settingOf .systemLibraries "system-libraries" none "FILE" .path
    "System library prefix list (one prefix per line)",
   settingOf .prefixMatch "prefix-match" none "PREFIX_MATCH" (.choice modeWords)
    "How class names are matched against prefixes",
   switchOf .parallel "parallel" none "Extract methods in parallel",
   settingOf .form "format" (some 'f') "FORMAT" (.choice formWords) "Output format",
   settingOf .output "output" (some 'o') "OUTPUT" .path "Output file (for json format)",
   switchOf .listFiles "list-files" none
    "List the smali files of the classes that survive filtering",
   switchOf .listAllFiles "list-all-files" none
    "List every smali file in the decompiled tree, before filtering",
   switchOf .showMethods "show-methods" none "Print every method that survives filtering",
   switchOf .deleteArchive "delete-apk" none "Delete the APK once it has been decompiled",
   switchOf .cleanup "cleanup" none "Delete the decompiled directory when done",
   switchOf .yes "yes" (some 'y') "Do not ask for confirmation before deleting anything",
   switchOf .verbose "verbose" (some 'v') "Verbose output",
   switchOf .quiet "quiet" (some 'q') "Quiet mode - only output results",
   settingOf .completions "completions" none "SHELL" (.choice shellWords)
    "Generate shell completions",
   switchOf .help "help" (some 'h') "Print help",
   switchOf .version "version" (some 'V') "Print version"]

namespace Parameter

/-- The name of the program. -/
def program : String := "smalisift"

/-- What the path on the command line is for. -/
def pathAbout : String := "APK to decompile, or a directory apktool already produced"

/-- The parameter called `name` in its long form. -/
def ofLong? (name : List Char) : Option Parameter :=
  parameters.find? (·.long.toList = name)

/-- The parameter called `letter` in its short form. -/
def ofShort? (letter : Char) : Option Parameter :=
  parameters.find? (·.short = some letter)

/-- The parameter takes a value. -/
def takesValue (parameter : Parameter) : Bool :=
  match parameter.role with
  | .setting _ => true
  | .switch _ => false

/-- The words that the value has to be one of. -/
def words (parameter : Parameter) : List (String × String) :=
  match parameter.kind with
  | .choice words => words
  | _ => []

/-- The names under which the parameter is given, the short one first. -/
def names (parameter : Parameter) : List String :=
  (parameter.short.map fun c => String.ofList ['-', c]).toList ++ ["--" ++ parameter.long]

end Parameter

end SmaliSieve.Cli
