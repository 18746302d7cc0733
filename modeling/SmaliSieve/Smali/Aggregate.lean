/-
  SmaliSieve.Smali.Aggregate

  From source files to classes. All files that declare one class become one record:
  their contents joined in the order of file name and path, whatever the order in which
  the files arrived. The records are sorted by class name.

  The files are gone through one by one. What they make stands in groups, which are found by
  the internal name of the class, beside a list of the names in the order in which they
  came up. In the end the names are gone through, and each one takes its group away.
-/

import SmaliSieve.Log.Logged
import SmaliSieve.Smali.Directive
import SmaliSieve.Smali.Record
import SmaliSieve.Text.Lines

namespace SmaliSieve.Smali

/-- The files by name, then by path; files that agree on both keep their order. -/
def sortFiles (files : List SourceFile) : List SourceFile :=
  files.mergeSort fun a b => (SourceFile.order a b).isLE

/-- The texts with line feeds between them. -/
def joinContents (contents : List String) : String :=
  String.ofList (Text.joinWith ['\n'] (contents.map String.toList))

@[simp] theorem joinContents_singleton (content : String) : joinContents [content] = content := by
  simp [joinContents, Text.joinWith]

/-- Each text but the last is followed by a line feed. -/
theorem joinContents_cons (content next : String) (more : List String) :
    joinContents (content :: next :: more) =
      content ++ "\n" ++ joinContents (next :: more) := by
  simp [joinContents, Text.joinWith, String.ofList_append, ← String.toList_inj]

/-- The contents of files by the class that the files declare. -/
structure Groups where
  /-- The internal names of the classes, in the order in which they came up. -/
  order : List String
  /-- The contents of the files of each class, found by its internal name. -/
  parts : List (String × List String)
  /-- The number of files without a class directive. -/
  skipped : Nat

namespace Groups

/-- Before there are any files. -/
def empty : Groups := ⟨[], [], 0⟩

/-- The groups with `content` behind what the class has. -/
def push (groups : Groups) (internal content : String) : Groups :=
  { groups with parts := groups.parts.map fun part =>
      if part.1 = internal then (part.1, part.2 ++ [content]) else part }

/-- The groups with a class more, which has `content`. -/
def start (groups : Groups) (internal content : String) : Groups :=
  { groups with
    order := groups.order ++ [internal], parts := (internal, [content]) :: groups.parts }

/-- The groups with a file more. A file without a class directive is told and counted. -/
def add (groups : Groups) (file : SourceFile) : Log.Logged Groups :=
  match declaredName? file.content with
  | none => ⟨{ groups with skipped := groups.skipped + 1 }, [.noDirective file.path]⟩
  | some internal =>
    match groups.parts.lookup internal with
    | some _ => pure (groups.push internal file.content)
    | none => pure (groups.start internal file.content)

/-- The records of classes by their internal names, each group taken out of `parts` as its
    name comes up. A name without a group is passed over. -/
def drain (parts : List (String × List String)) : List String → List ClassRecord
  | [] => []
  | internal :: rest =>
    match parts.lookup internal with
    | some contents =>
      ⟨canonicalName internal, joinContents contents⟩ ::
        drain (parts.filter (·.1 ≠ internal)) rest
    | none => drain parts rest

end Groups

/-- The classes that `files` declare, by name, with what is told on the way. -/
def aggregateLogged (files : List SourceFile) : Log.Logged (List ClassRecord) := do
  let groups ← (sortFiles files).foldlM Groups.add .empty
  let records := Groups.drain groups.parts groups.order
  let classes := records.mergeSort fun a b => (ClassRecord.order a b).isLE
  Log.Logged.tell (if groups.skipped = 0 then [] else [.skipped groups.skipped])
  Log.Logged.tell [.classes classes.length]
  Log.Logged.tell (if classes.isEmpty then [.noClasses] else [])
  return classes

/-- The classes that `files` declare, by name. -/
def aggregate (files : List SourceFile) : List ClassRecord := (aggregateLogged files).value

end SmaliSieve.Smali
