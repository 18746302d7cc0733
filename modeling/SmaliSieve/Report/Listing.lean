/-
  SmaliSieve.Report.Listing

  Lists for the terminal: files under a title, and methods with their text.
-/

import SmaliSieve.Path.Relative
import SmaliSieve.Report.Style
import SmaliSieve.Smali.Record
import SmaliSieve.Text.Blank

namespace SmaliSieve.Report

open Smali

/-- The title of the list of the files that are left after filtering. -/
def filteredTitle : String := "Filtered smali files"

/-- The title of the list of all files. -/
def allTitle : String := "All smali files"

/-- A path as it is shown, relative to `base` if there is one. -/
def shownPath (base : Option Path) (path : Path) : String :=
  match base with
  | some base => path.relativeTo base
  | none => path.text

/-- The files under a title, with their number. -/
def fileList (color : Bool) (base : Option Path) (title : String) (files : List Path) :
    String :=
  let count := Style.count.paint color (toString files.length)
  unlines <|
    ["", Style.header.paint color title ++ " (" ++ count ++ ")"]
      ++ files.map fun path => "  " ++ Style.filePath.paint color (shownPath base path)

/-- A method: its class, its opening line and its text. -/
def methodBlock (color : Bool) (method : MethodRecord) : String :=
  let labelled (label : String) (style : Style) (text : String) : String :=
    "  " ++ Style.label.paint color label ++ " " ++ style.paint color text
  unlines
    ["", labelled "Class ID :" .className method.className,
     labelled "Method ID:" .signature method.signature,
     lightLine 40, Text.trimmed method.content, lightLine 40]

/-- The methods, one after the other. -/
def methodList (color : Bool) (methods : List MethodRecord) : String :=
  String.join (methods.map (methodBlock color))

end SmaliSieve.Report
