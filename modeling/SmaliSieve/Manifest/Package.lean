/-
  SmaliSieve.Manifest.Package

  The package that an application manifest names: the attribute `package` of its root
  element, which has to be a `manifest` element.
-/

import SmaliSieve.Text.Blank
import SmaliSieve.Xml.Attribute
import SmaliSieve.Xml.Prolog
import SmaliSieve.Xml.Reference

namespace SmaliSieve.Manifest

open Xml

/-- `text` without a byte order mark at its start. -/
def dropByteOrderMark (text : List Char) : List Char :=
  match text with
  | '\uFEFF' :: rest => rest
  | text => text

/-- The name of the root element. -/
def rootName : List Char := "manifest".toList

/-- The key of the attribute that names the package. -/
def packageKey : List Char := "package".toList

/-- The package named by a root tag. A blank value names none. -/
def packageOfTag (tag : StartTag) : Except XmlFault (Option (List Char)) :=
  if tag.name = rootName then do
    match ← tag.value packageKey with
    | none => return none
    | some written =>
      let package := Text.trim (← unescape written)
      return if package.isEmpty then none else some package
  else .ok none

/-- The package that the manifest `document` names, if it names one. -/
def parsePackage (document : String) : Except XmlFault (Option String) := do
  match ← firstTag? (dropByteOrderMark document.toList) with
  | none => return none
  | some content => return (← packageOfTag (.ofContent content)).map String.ofList

end SmaliSieve.Manifest
