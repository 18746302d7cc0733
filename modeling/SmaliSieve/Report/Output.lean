/-
  SmaliSieve.Report.Output

  Reporting on an application, on the terminal or as JSON. Only a JSON report can go to a
  file, where no line feed ends it.
-/

import SmaliSieve.Report.Document
import SmaliSieve.Report.Listing
import SmaliSieve.Report.Summary
import SmaliSieve.Tree.Change

namespace SmaliSieve.Report

open Namespace (FilterReport)

/-- The form of a report. -/
inductive Form where
  | terminal
  | json
  deriving DecidableEq, Repr

/-- What is to be reported, and where. -/
structure Options where
  form : Form
  /-- The file that a JSON report goes to. -/
  output : Option Path
  /-- What the paths of files are shown relative to. -/
  base : Option Path
  showFiles : Bool
  showMethods : Bool
  color : Bool
  deriving DecidableEq, Repr

/-- A report that was made: what was printed, where it went instead, and the disk. -/
structure Made where
  printed : String
  /-- The file that the report was written to. -/
  written : Option Path
  disk : Disk

/-- The report for the terminal. -/
def terminalText (options : Options) (app : App) (report : FilterReport) (files : List Path) :
    String :=
  (if options.showMethods then methodList options.color app.methods else "")
    ++ (if options.showFiles then fileList options.color options.base filteredTitle files
        else "")
    ++ summary options.color app.counts report

/-- The report as JSON. -/
def jsonText (options : Options) (app : App) (report : FilterReport) (files : List Path) :
    String :=
  (document app report files options.showMethods).text

/-- Reports on an application. -/
def make (options : Options) (app : App) (report : FilterReport) (files : List Path)
    (disk : Disk) : Except Fault Made :=
  match options.form, options.output with
  | .terminal, _ => .ok ⟨terminalText options app report files, none, disk⟩
  | .json, none => .ok ⟨jsonText options app report files ++ "\n", none, disk⟩
  | .json, some path =>
    match disk.write path (jsonText options app report files).toUTF8 with
    | .ok disk => .ok ⟨"", some path, disk⟩
    | .error cause => .error (.filesystem path cause)

theorem make_json_printed {options : Options} (hform : options.form = .json)
    (houtput : options.output = none) {app : App} {report : FilterReport} {files : List Path}
    {disk : Disk} {made : Made} (h : make options app report files disk = .ok made) :
    made.printed = jsonText options app report files ++ "\n" := by
  simp only [make, hform, houtput] at h
  rw [← Except.ok.inj h]

/-- A JSON report that goes to a file is all there is in the file. -/
theorem make_json_written {options : Options} (hform : options.form = .json) {target : Path}
    (houtput : options.output = some target) {app : App} {report : FilterReport}
    {files : List Path} {disk : Disk} {made : Made}
    (h : make options app report files disk = .ok made) :
    disk.write target (jsonText options app report files).toUTF8 = .ok made.disk := by
  simp only [make, hform, houtput] at h
  split at h
  · next written hwrite =>
    rw [← Except.ok.inj h]
    exact hwrite
  · cases h

end SmaliSieve.Report
