/-
  SmaliSieve.Xml.Attribute

  The attributes of a start tag, read one at a time and only as far as they are asked
  for. A key is everything up to `=` or white space, its first character in any case.
-/

import SmaliSieve.Xml.Fault

namespace SmaliSieve.Xml

/-- A start tag cut into the name of the element and the text behind the name. The `/`
    of an empty element is no part of either. -/
structure StartTag where
  /-- The text between `<` and `>`, without the closing `/`. -/
  content : List Char
  deriving DecidableEq, Repr

namespace StartTag

/-- The tag with the given text between `<` and `>`. -/
def ofContent (content : List Char) : StartTag :=
  ⟨if content.getLast? = some '/' then content.dropLast else content⟩

/-- The name of the element. -/
def name (tag : StartTag) : List Char :=
  tag.content.takeWhile (!isSpace ·)

/-- The text behind the name. -/
def attributeText (tag : StartTag) : List Char :=
  tag.content.dropWhile (!isSpace ·)

end StartTag

/-- A character that continues a key. -/
def isKeyChar (c : Char) : Bool := c ≠ '=' && !isSpace c

/-- An attribute, the text of its value as it is written. -/
structure Attribute where
  key : List Char
  value : List Char
  deriving DecidableEq, Repr

/-- An attribute that was read: where its key starts, and the text behind it. -/
structure Reading where
  entry : Attribute
  position : Nat
  rest : List Char
  deriving DecidableEq, Repr

/-- The value of an attribute, where `text` stands behind the `=`, and the text behind
    the value. `length` is the number of bytes of the whole tag. -/
def readValue (length : Nat) (text : List Char) : Except XmlFault (List Char × List Char) :=
  match text.dropWhile isSpace with
  | [] => .error (.valueMissing length)
  | quote :: body =>
    if quote = '"' || quote = '\x27' then
      match Text.cutAt? [quote] body with
      | some cut => .ok cut
      | none => .error (.quoteMissing length quote)
    else .error (.valueUnquoted (length - Text.byteLength (quote :: body)))

/-- The next attribute in `text`, if there is one. `seen` has the keys that were read
    before and where they start; `length` is the number of bytes of the whole tag. -/
def nextAttribute (length : Nat) (seen : List (List Char × Nat)) (text : List Char) :
    Except XmlFault (Option Reading) :=
  match text.dropWhile isSpace with
  | [] => .ok none
  | c :: tail =>
    let key := c :: tail.takeWhile isKeyChar
    let position := length - Text.byteLength (c :: tail)
    match (tail.dropWhile isKeyChar).dropWhile isSpace with
    | '=' :: text =>
      match seen.lookup key with
      | some previous => .error (.repeatedKey position previous)
      | none =>
        match readValue length text with
        | .error fault => .error fault
        | .ok (value, rest) => .ok (some ⟨⟨key, value⟩, position, rest⟩)
    | text => .error (.keyWithoutSign (length - Text.byteLength text))

theorem readValue_shorter {length : Nat} {text value rest : List Char}
    (h : readValue length text = .ok (value, rest)) : rest.length < text.length := by
  have hlen := (List.dropWhile_suffix (l := text) isSpace).length_le
  unfold readValue at h
  split at h
  · simp at h
  · next quote body heq =>
    rw [heq] at hlen
    split at h
    · split at h
      · next hcut =>
        obtain rfl : _ = (value, rest) := by simpa using h
        rw [Text.cutAt?_eq_some hcut] at hlen
        simp only [List.length_append, List.length_cons] at hlen
        omega
      · simp at h
    · simp at h

/-- Reading an attribute uses up some of the text. -/
theorem nextAttribute_shorter {length : Nat} {seen : List (List Char × Nat)}
    {text : List Char} {reading : Reading}
    (h : nextAttribute length seen text = .ok (some reading)) :
    reading.rest.length < text.length := by
  have hlen := (List.dropWhile_suffix (l := text) isSpace).length_le
  unfold nextAttribute at h
  split at h
  · simp at h
  · next c tail heq =>
    rw [heq] at hlen
    have hkey := (List.dropWhile_suffix (l := tail) isKeyChar).length_le
    have hspace := (List.dropWhile_suffix (l := tail.dropWhile isKeyChar) isSpace).length_le
    simp only at h
    split at h
    · next after hafter =>
      rw [hafter] at hspace
      split at h
      · simp at h
      · split at h
        · simp at h
        · next hvalue =>
          obtain rfl : _ = reading := by simpa using h
          have := readValue_shorter hvalue
          simp only [List.length_cons] at hlen hspace
          simp only
          omega
    · simp at h

/-- The written value of the attribute `key`, if it stands in `text`. What stands behind
    that attribute is not looked at. -/
def findValue (key : List Char) (length : Nat) (seen : List (List Char × Nat))
    (text : List Char) : Except XmlFault (Option (List Char)) :=
  match _h : nextAttribute length seen text with
  | .error fault => .error fault
  | .ok none => .ok none
  | .ok (some reading) =>
    if reading.entry.key = key then .ok (some reading.entry.value)
    else findValue key length ((reading.entry.key, reading.position) :: seen) reading.rest
termination_by text.length
decreasing_by exact nextAttribute_shorter _h

/-- The written value of the attribute `key` of the tag. -/
def StartTag.value (tag : StartTag) (key : List Char) :
    Except XmlFault (Option (List Char)) :=
  findValue key (Text.byteLength tag.content) [] tag.attributeText

end SmaliSieve.Xml
