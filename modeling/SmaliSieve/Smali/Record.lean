/-
  SmaliSieve.Smali.Record

  The records that flow through the program: source files as they were read, classes
  put together from them, and the methods found in the classes.
-/

import SmaliSieve.Path.Order

namespace SmaliSieve.Smali

/-- A disassembly file as it was read. -/
structure SourceFile where
  /-- The bare file name, first part of the sort key. -/
  fileName : String
  content : String
  /-- Where the file was read from, second part of the sort key. -/
  path : Path
  deriving DecidableEq, Repr

/-- A class, put together from every file that declares it. -/
structure ClassRecord where
  /-- The dotted name. -/
  className : String
  /-- The contents of the files, joined by line feeds. -/
  content : String
  deriving DecidableEq, Repr

/-- One method of a class. -/
structure MethodRecord where
  /-- The dotted name of the class the method belongs to. -/
  className : String
  /-- The line that opens the method. -/
  signature : String
  /-- The whole block, from the opening to the closing marker. -/
  content : String
  deriving DecidableEq, Repr

/-- By file name, then by path. -/
def SourceFile.order : SourceFile → SourceFile → Ordering :=
  compareLex (compareOn SourceFile.fileName) fun a b => Path.order a.path b.path

/-- By class name. -/
def ClassRecord.order : ClassRecord → ClassRecord → Ordering :=
  compareOn ClassRecord.className

end SmaliSieve.Smali
