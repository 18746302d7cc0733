/-
  SmaliSieve.Report.Document

  The machine-readable report: the counts, the filter passes, the files, the classes and,
  if asked for, the methods.
-/

import SmaliSieve.App.Basic
import SmaliSieve.Namespace.Filter
import SmaliSieve.Report.Json

namespace SmaliSieve.Report

open Namespace (FilterReport)
open Smali

/-- The version of the program, which is also that of the report. -/
def version : String := "0.1.0"

/-- The counts. -/
def countsJson (counts : Counts) : Json :=
  .object
    [("classes", .number counts.classes), ("methods", .number counts.methods),
     ("avg_methods_per_class", .number counts.average)]

/-- The filter passes. -/
def filterJson (report : FilterReport) : Json :=
  .object
    [("package", .ofString? report.package), ("start", .number report.start),
     ("after_package", .ofNat? report.afterPackage),
     ("after_system", .ofNat? report.afterSystem),
     ("after_libraries", .ofNat? report.afterLibraries)]

/-- A method. -/
def methodJson (method : MethodRecord) : Json :=
  .object
    [("class_name", .string method.className), ("method_signature", .string method.signature),
     ("content", .string method.content)]

/-- The members that every report has. -/
def commonMembers (app : App) (report : FilterReport) (files : List Path) :
    List (String × Json) :=
  [("version", .string version), ("summary", countsJson app.counts),
   ("filter", filterJson report), ("files", .array (files.map fun path => .string path.text)),
   ("classes", .array (app.classes.map fun record => .string record.className))]

/-- The report, with or without the methods. -/
def document (app : App) (report : FilterReport) (files : List Path) (withMethods : Bool) :
    Json :=
  .object <|
    commonMembers app report files
      ++ if withMethods then [("methods", .array (app.methods.map methodJson))] else []

end SmaliSieve.Report
