/-
  SmaliSieve.Smali.Directive

  The class directive, `.class public final Lcom/example/Foo;`.

  A directive is read generously. Behind `.class` comes a run of word characters and
  white space, which starts with white space and may go over many lines; in it, the
  *last* `L` that stands behind white space and in front of anything but `;` opens the
  name, and the name goes on to the next `;` or to the end of the text, whatever stands
  in between. The first `.class` whose run holds such an `L` declares the class.
-/

import SmaliSieve.Text.Word
import SmaliSieve.Text.Search

namespace SmaliSieve.Smali

/-- The word that opens a directive. -/
def classKeyword : List Char := ".class".toList

/-- A character that may stand between `.class` and the name. -/
def isRunChar (c : Char) : Bool := Text.isWord c || Text.isBlank c

/-- The text up to the next `;`. -/
def upToSemicolon (text : List Char) : List Char := text.takeWhile (· ≠ ';')

/-- The name that the last opening `L` in the run at the start of `text` opens.
    `blankBefore` says whether the character before `text` is white space. -/
def lastNameIn (blankBefore : Bool) : List Char → Option (List Char)
  | [] => none
  | c :: rest =>
    if isRunChar c then
      -- the last opening wins, so what follows is asked first
      match lastNameIn (Text.isBlank c) rest with
      | some name => some name
      | none =>
        if blankBefore && c = 'L' && !(upToSemicolon rest).isEmpty then
          some (upToSemicolon rest)
        else none
    else none

/-- The name declared by a directive whose keyword has `text` behind it. -/
def nameAfterKeyword (text : List Char) : Option (List Char) :=
  if (text.head?.map Text.isBlank).getD false then lastNameIn false text else none

/-- The name declared by the first directive in `text`. -/
def declaredNameIn : List Char → Option (List Char)
  | [] => none
  | c :: rest =>
    match (Text.chop? classKeyword (c :: rest)).bind nameAfterKeyword with
    | some name => some name
    | none => declaredNameIn rest

/-- The internal name, with slashes, of the class that `content` declares. -/
def declaredName? (content : String) : Option String :=
  (declaredNameIn content.toList).map String.ofList

/-- The dotted name of the class with the given internal name. -/
def canonicalName (internal : String) : String :=
  String.ofList (Text.replaceChar '/' '.' internal.toList)

end SmaliSieve.Smali
