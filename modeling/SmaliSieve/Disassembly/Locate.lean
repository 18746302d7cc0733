/-
  SmaliSieve.Disassembly.Locate

  From class names back to files. The class `com.example.Foo` is looked for at
  `com/example/Foo.smali` in each disassembly root, and the first root that has such a
  file wins. An extension with a separator fits no file name, so with one there is no
  place to look at.
-/

import SmaliSieve.Disassembly.Roots
import SmaliSieve.Path.Name
import SmaliSieve.Text.Lines

namespace SmaliSieve.Disassembly

/-- Where a class of the given dotted name stands in a disassembly root. -/
def sourcePath? (className extension : String) : Option Path :=
  let folders := Text.segments '.' className.toList
  ((Path.mk []).joinAll folders).withExtension? extension.toList

/-- The file of the class in the first of `roots` that has it. The outer `none` says that
    the extension fits no file name. -/
def locateIn (layout : Layout) (disk : Disk) (roots : List Path) (className : String) :
    Option (Option Path) :=
  (sourcePath? className layout.extension).map fun relative =>
    (roots.map (·.join relative.chars)).find? disk.isFile

/-- The files of those classes that have one, in the order of the classes. -/
def locateAllIn (layout : Layout) (disk : Disk) (roots : List Path)
    (classNames : List String) : Option (List Path) :=
  (classNames.mapM (locateIn layout disk roots)).map (·.filterMap id)

/-- The file of the class in the decompiled tree at `base`. -/
def locate (layout : Layout) (disk : Disk) (base : Path) (className : String) :
    Log.Logged (Option (Option Path)) := do
  let found ← roots layout disk base
  return locateIn layout disk (found.map (·.1)) className

/-- The files of those classes that have one in the decompiled tree at `base`. -/
def locateAll (layout : Layout) (disk : Disk) (base : Path) (classNames : List String) :
    Log.Logged (Option (List Path)) := do
  let found ← roots layout disk base
  return locateAllIn layout disk (found.map (·.1)) classNames

/-- The disassembly files of the decompiled tree at `base`: those with the extension of
    the layout. -/
def sources (layout : Layout) (disk : Disk) (base : Path) : Log.Logged (List Path) := do
  let files := filesOf (← roots layout disk base)
  return (files.map (·.1)).filter fun path => path.extension? = some layout.extension.toList

end SmaliSieve.Disassembly
