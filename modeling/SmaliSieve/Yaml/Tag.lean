/-
  SmaliSieve.Yaml.Tag

  Anchors, tags and directives as they are written. A tag is a handle and a suffix; what
  the handle stands for is settled by the directives of the document.
-/

import SmaliSieve.Yaml.Scalar
import SmaliSieve.Yaml.Token

namespace SmaliSieve.Yaml

/-- A character that may follow a name directly. -/
def endsName : List Char → Bool
  | [] => true
  | c :: _ => isGap c || "?:,]\x7d%@`".toList.contains c

/-- The name of an anchor or alias, where the cursor stands in front of its sign. -/
def anchorName (cursor : Cursor) : Option (List Char × Cursor) :=
  let (name, behind) := (cursor.skip 1).span isNameChar
  if name.isEmpty || !endsName behind.rest then none else some (name, behind)

/-- A character of a tag. The last three only stand in tags in angle brackets and in
    directives. -/
def isTagChar (verbatim : Bool) (c : Char) : Bool :=
  isNameChar c || ";/?:@&=+$.!~*\x27()".toList.contains c
    || (verbatim && (c = ',' || c = '[' || c = ']'))

/-- The byte written by a percent sign and two hexadecimal digits at the start of
    `text`. -/
def percentByte? : List Char → Option Nat
  | '%' :: a :: b :: _ => do return (← hexDigit? a) * 16 + (← hexDigit? b)
  | _ => none

/-- The number of bytes of a character with the given first byte. -/
def widthOf? (byte : Nat) : Option Nat :=
  if byte < 0x80 then some 1
  else if byte / 0x20 = 0x06 then some 2
  else if byte / 0x10 = 0x0E then some 3
  else if byte / 0x08 = 0x1E then some 4
  else none

/-- The character written by percent signs at the start of `text`, and the number of
    bytes it is made of. -/
def percentChar? (text : List Char) : Option (Char × Nat) := do
  let first ← percentByte? text
  let width ← widthOf? first
  let bytes ← (List.range width).mapM fun i => percentByte? (text.drop (3 * i))
  if bytes.tail.all fun byte => byte / 0x40 = 2 then
    let lead := if width = 1 then first else first % Nat.pow 2 (7 - width)
    let number := bytes.tail.foldl (fun n byte => n * 0x40 + byte % 0x40) lead
    some (Char.ofNat number, width)
  else none

/-- The characters of a tag from the cursor on. -/
def tagChars (verbatim : Bool) : Nat → List Char → Cursor → Option (List Char × Cursor)
  | 0, text, cursor => some (text, cursor)
  | fuel + 1, text, cursor =>
    match cursor.rest with
    | [] => some (text, cursor)
    | c :: _ =>
      if c = '%' then
        match percentChar? cursor.rest with
        | some (char, width) =>
          tagChars verbatim fuel (text ++ [char]) (cursor.skip (3 * width))
        | none => none
      else if isTagChar verbatim c then
        tagChars verbatim fuel (text ++ [c]) (cursor.skip 1)
      else some (text, cursor)

/-- The rest of a tag, behind the characters `head` that were read as a handle and are
    none. -/
def tagSuffix (verbatim : Bool) (head : List Char) (cursor : Cursor) :
    Option (List Char × Cursor) := do
  let (text, behind) ← tagChars verbatim cursor.rest.length [] cursor
  if head.isEmpty && text.isEmpty then none else some (head.drop 1 ++ text, behind)

/-- A tag handle, `!`, `!!` or `!name!`, or what looks like the start of one. -/
def tagHandle (cursor : Cursor) : Option (List Char × Cursor) :=
  if cursor.rest.head? = some '!' then
    let (name, behind) := (cursor.skip 1).span isNameChar
    if behind.rest.head? = some '!' then some ('!' :: name ++ ['!'], behind.skip 1)
    else some ('!' :: name, behind)
  else none

/-- The handle and the suffix of a tag in angle brackets, which has no handle. -/
def verbatimTag (cursor : Cursor) : Option (List Char × List Char × Cursor) := do
  let (suffix, behind) ← tagSuffix true [] (cursor.skip 2)
  if behind.rest.head? = some '>' then some ([], suffix, behind.skip 1) else none

/-- The handle and the suffix of any other tag. What starts like a handle and is none
    belongs to the suffix, and a lone `!` is a tag without a handle. -/
def shortTag (cursor : Cursor) : Option (List Char × List Char × Cursor) := do
  let (handle, behind) ← tagHandle cursor
  if 1 < handle.length && handle.getLast? = some '!' then
    let (suffix, behind) ← tagSuffix false [] behind
    return (handle, suffix, behind)
  else
    let (suffix, behind) ← tagSuffix false handle behind
    return if suffix.isEmpty then ([], ['!'], behind) else (['!'], suffix, behind)

/-- The tag at the cursor and the place behind it. -/
def tagToken (inFlow : Bool) (cursor : Cursor) : Option (Token × Cursor) := do
  let verbatim := (cursor.rest.drop 1).head? = some '<'
  let (handle, suffix, behind) ← if verbatim then verbatimTag cursor else shortTag cursor
  if gapAhead behind.rest || (inFlow && behind.rest.head? = some ',') then
    some (.tag handle suffix, behind)
  else none

/-- The most digits a version number may have. -/
def longestVersion : Nat := 9

/-- A number of a version directive. -/
def versionNumber (cursor : Cursor) : Option (Nat × Cursor) :=
  let (digits, behind) := cursor.span Char.isDigit
  if digits.isEmpty || longestVersion < digits.length then none
  else some (digits.foldl (fun n c => n * 10 + (c.toNat - '0'.toNat)) 0, behind)

/-- The directive at the cursor and the place behind its line. -/
def directive (cursor : Cursor) : Option (Token × Cursor) := do
  let (name, behind) := (cursor.skip 1).span isNameChar
  if name.isEmpty || !gapAhead behind.rest then none
  else
    let behind := behind.skipWhile isBlank
    if name = "YAML".toList then
      let (major, behind) ← versionNumber behind
      if behind.rest.head? = some '.' then
        let (minor, behind) ← versionNumber (behind.skip 1)
        return (.versionDirective major minor, ← behind.endLine?)
      else none
    else if name = "TAG".toList then
      let (handle, behind) ← tagHandle behind
      let blankBehind := (behind.rest.head?.map isBlank).getD false
      if (handle = ['!'] || handle.getLast? = some '!') && blankBehind then
        let (stem, behind) ← tagSuffix true [] (behind.skipWhile isBlank)
        if gapAhead behind.rest then
          return (.tagDirective handle stem, ← behind.endLine?)
        else none
      else none
    else none

end SmaliSieve.Yaml
