/-
  SmaliSieve.Smali.Method

  From classes to methods. Each block becomes a record that carries the name of its
  class. The work may be split over the class list; how it is split does not show,
  because the results are put together by position.
-/

import SmaliSieve.Log.Logged
import SmaliSieve.Smali.Block
import SmaliSieve.Smali.Record
import SmaliSieve.Text.Blank

namespace SmaliSieve.Smali

/-- The record of a block of the class `className`. -/
def methodOfBlock? (className : String) (block : List Char) : Option MethodRecord :=
  let body := Text.trim block
  (Text.lines body).head?.map fun line =>
    ⟨className, String.ofList (Text.trim line), String.ofList body⟩

/-- The methods of a class, in the order of their text. -/
def methodsOf (record : ClassRecord) : List MethodRecord :=
  (blocksIn record.content.toList).filterMap (methodOfBlock? record.className)

/-- The methods of all classes, class by class. -/
def methodsOfAll (records : List ClassRecord) : List MethodRecord :=
  records.flatMap methodsOf

/-- A way to split a list over workers: leave it whole, or cut it behind its first
    `count` entries and split both parts further. -/
inductive Split where
  | whole
  | cut (count : Nat) (left right : Split)
  deriving Repr

/-- The methods of all classes, found part by part and put together by position. -/
def Split.methodsOfAll : Split → List ClassRecord → List MethodRecord
  | .whole, records => Smali.methodsOfAll records
  | .cut count left right, records =>
    left.methodsOfAll (records.take count) ++ right.methodsOfAll (records.drop count)

/-- Halves, quarters and so on, `depth` times. -/
def Split.halving : Nat → Nat → Split
  | 0, _ => .whole
  | depth + 1, length =>
    .cut (length / 2) (halving depth (length / 2)) (halving depth (length - length / 2))

/-- How the class list is split when extraction runs in parallel. -/
def Split.forLength (length : Nat) : Split := Split.halving 3 length

/-- The methods of all classes, found in one go or split over workers. -/
def extractMethods (parallel : Bool) (records : List ClassRecord) : List MethodRecord :=
  if parallel then (Split.forLength records.length).methodsOfAll records
  else methodsOfAll records

/-- `extractMethods`, with the count told. -/
def extractLogged (parallel : Bool) (records : List ClassRecord) :
    Log.Logged (List MethodRecord) :=
  let methods := extractMethods parallel records
  ⟨methods, [.methods methods.length]⟩

end SmaliSieve.Smali
