/-
  SmaliSieve.Manifest.Reading

  The package of a decompiled tree, from the manifest that stands in its folder. A
  package that cannot be found out is told and counts as absent.
-/

import SmaliSieve.Log.Logged
import SmaliSieve.Manifest.Package
import SmaliSieve.Tree.Reading

namespace SmaliSieve.Manifest

/-- The name of the manifest file. -/
def fileName : Name := "AndroidManifest.xml".toList

/-- The text of the manifest of the decompiled tree at `base`. -/
def readDocument (disk : Disk) (base : Path) : Except Fault String :=
  let path := base.join fileName
  if disk.isFile path then (disk.readText path).mapError (Fault.filesystem path)
  else .error (.missing .manifest path)

/-- The package that the manifest of the decompiled tree at `base` names. -/
def readPackage (disk : Disk) (base : Path) : Log.Logged (Option String) :=
  match readDocument disk base with
  | .error fault => ⟨none, [.trouble fault]⟩
  | .ok document =>
    match parsePackage document with
    | .ok (some package) => ⟨some package, [.packageFound package]⟩
    | .ok none => ⟨none, [.packageAbsent (base.join fileName)]⟩
    | .error fault => ⟨none, [.manifestBroken (base.join fileName) fault.message]⟩

end SmaliSieve.Manifest
