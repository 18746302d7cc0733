/-
  SmaliSieve.Report.Summary

  The summary of a run for the terminal: the counts, and a table of the filter passes
  with a bar for what each pass left.
-/

import SmaliSieve.App.Basic
import SmaliSieve.Namespace.Filter
import SmaliSieve.Report.Bar
import SmaliSieve.Report.Style

namespace SmaliSieve.Report

open Namespace (FilterReport)

/-- A labelled count. -/
def countLine (color : Bool) (label : String) (count : Nat) : String :=
  Style.label.paint color (padLeft 24 label) ++ "  " ++ Style.count.paint color (toString count)

/-- The lines on the counts. -/
def countLines (color : Bool) (counts : Counts) : List String :=
  [countLine color "Classes:" counts.classes,
   countLine color "Methods:" counts.methods,
   countLine color "Avg methods per class:" counts.average]

/-- The line on one filter pass. -/
def passLine (color : Bool) (start : Nat) (row : String × Nat) : String :=
  "  " ++ padRight 22 row.1 ++ " " ++ Style.bar.paint color (bar row.2 start) ++ " "
    ++ padLeft 6 (toString row.2)

/-- The lines on the filter. -/
def filterLines (color : Bool) (report : FilterReport) : List String :=
  [Style.header.paint color "Class filtering", lightLine 50] ++
    match report.package with
    | none =>
      ["  " ++ Style.notice.paint color
        "No application package found; classes were not filtered"]
    | some package =>
      ("  Package: " ++ Style.className.paint color package)
        :: report.rows.map (passLine color report.start)

/-- The summary. -/
def summary (color : Bool) (counts : Counts) (report : FilterReport) : String :=
  unlines <|
    ["", Style.header.paint color "smalisift Summary", heavyLine 50]
      ++ countLines color counts ++ [""] ++ filterLines color report

end SmaliSieve.Report
