/-
  SmaliSieve.Settings.Loading

  Finding and reading settings files. The extension of a file tells its format: `yml` and
  `yaml` are YAML, and everything else is TOML.
-/

import SmaliSieve.Log.Logged
import SmaliSieve.Path.Name
import SmaliSieve.Settings.FromToml
import SmaliSieve.Settings.FromYaml
import SmaliSieve.Tree.Reading

namespace SmaliSieve.Settings

/-- The extensions of YAML files. -/
def yamlExtensions : List (List Char) := ["yml".toList, "yaml".toList]

/-- The file at `path` is YAML. -/
def isYaml (path : Path) : Bool :=
  (path.extension?.map yamlExtensions.contains).getD false

/-- The settings in a document, in the format that goes with `path`. -/
def parse (path : Path) (document : String) : Except Fault Settings :=
  if isYaml path then
    match ofYaml? document with
    | some settings => .ok settings
    | none => .error (.settings path "no settings in YAML")
  else
    match ofToml? document with
    | some settings => .ok settings
    | none => .error (.settings path "no settings in TOML")

/-- The settings in the file at `path`, or the fault that keeps them from being read. -/
def read (disk : Disk) (path : Path) : Except Fault Settings := do
  let document ← (disk.readText path).mapError (Fault.filesystem path)
  parse path document

/-- The settings in the file at `path`. -/
def load (disk : Disk) (path : Path) : Log.Logged (Except Fault Settings) :=
  match read disk path with
  | .ok settings => ⟨.ok settings, [.settingsLoaded path]⟩
  | .error fault => ⟨.error fault, []⟩

/-- The names under which a settings file is looked for. -/
def fileNames : List Name :=
  [".smalisift.toml".toList, ".smalisift.yml".toList, ".smalisift.yaml".toList]

/-- The settings in the first settings file of the folder, the usual ones if there is no
    such file. -/
def loadFrom (disk : Disk) (folder : Path) : Log.Logged (Except Fault Settings) :=
  match (fileNames.map folder.join).find? disk.isFile with
  | some path => load disk path
  | none => pure (.ok usual)

end SmaliSieve.Settings
