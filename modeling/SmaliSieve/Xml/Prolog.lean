/-
  SmaliSieve.Xml.Prolog

  What stands in front of the root element: text, references, comments, character data,
  a document type and processing instructions. All of it is passed over, but has to be
  closed. The first thing that is none of these is a tag.
-/

import SmaliSieve.Text.Blank
import SmaliSieve.Xml.Fault

namespace SmaliSieve.Xml

/-- What comes next in a document. -/
inductive Markup where
  /-- Nothing more. -/
  | nothing
  /-- Something to pass over, and the text behind it. -/
  | passed (rest : List Char)
  /-- A start tag: the text between `<` and `>`. -/
  | startTag (content : List Char)
  deriving DecidableEq, Repr

/-- The text behind the `>` that closes a document type, where `depth` more `<` than `>`
    have been seen since its start. -/
def closeDoctype? : Nat → List Char → Option (List Char × List Char)
  | _, [] => none
  | depth, c :: text =>
    if c = '>' && depth = 0 then some ([], text)
    else
      let next := if c = '<' then depth + 1 else if c = '>' then depth - 1 else depth
      (closeDoctype? next text).map fun cut => (c :: cut.1, cut.2)

/-- The text up to the `>` that closes a tag. Inside quotes a `>` does not. -/
def tagContent? : Option Char → List Char → Option (List Char)
  | _, [] => none
  | quote, c :: text =>
    if c = '>' && quote = none then some []
    else
      let next :=
        match quote with
        | some q => if c = q then none else quote
        | none => if c = '"' || c = '\x27' then some c else none
      (tagContent? next text).map (c :: ·)

/-- `text` behind `<!`, up to and including the end of the markup that starts there. -/
def passDeclaration (text : List Char) : Except XmlFault (List Char) :=
  match text.head? with
  | some '[' =>
    match (Text.chop? "[CDATA[".toList text).bind (Text.cutAt? "]]>".toList) with
    | some (_, rest) => .ok rest
    | none => .error .cdataNotClosed
  | some '-' =>
    match (Text.chop? "--".toList text).bind (Text.cutAt? "-->".toList) with
    | some (_, rest) => .ok rest
    | none => .error .commentNotClosed
  | some c =>
    if c = 'D' || c = 'd' then
      let keyword := "DOCTYPE".toList
      if (text.take keyword.length).map Char.toUpper = keyword then
        match closeDoctype? 0 (text.drop keyword.length) with
        | some (name, rest) =>
          if name.all isSpace then .error .doctypeWithoutName else .ok rest
        | none => .error .doctypeNotClosed
      else .error .doctypeNotClosed
    else .error .unknownMarkup
  | none => .error .unknownMarkup

/-- The name of an end tag. White space behind it is dropped, unless there is nothing
    else. -/
def endTagName (content : List Char) : List Char :=
  let name := Text.dropEndWhile isSpace content
  if name.isEmpty then content else name

/-- The markup that `text` starts with, where `text` is what stands behind a `<`. The
    `?` of an instruction also serves as the first character of its end, so `<?>` is
    an instruction that is never closed. -/
def markupAt (text : List Char) : Except XmlFault Markup :=
  match text with
  | '!' :: text => (passDeclaration text).map .passed
  | '?' :: text =>
    if text.head? = some '>' then .error .instructionNotClosed
    else
      match Text.cutAt? "?>".toList text with
      | some (_, rest) => .ok (.passed rest)
      | none => .error .instructionNotClosed
  | text =>
    match tagContent? none text with
    | some ('/' :: content) => .error (.strayEndTag (endTagName content))
    | some content => .ok (.startTag content)
    | none => .error .tagNotClosed

/-- The text behind the `;` that closes a reference, where `text` stands behind `&`. -/
def passReference (text : List Char) : Except XmlFault (List Char) :=
  match text.dropWhile fun c => c ≠ ';' && c ≠ '&' && c ≠ '<' with
  | ';' :: rest => .ok rest
  | _ => .error .referenceNotClosed

/-- What comes next in a document, the text in front of it left out. -/
def nextMarkup (text : List Char) : Except XmlFault Markup :=
  match text.dropWhile fun c => c ≠ '<' && c ≠ '&' with
  | [] => .ok .nothing
  | '<' :: text => markupAt text
  | _ :: text => (passReference text).map .passed

theorem closeDoctype?_shorter {depth : Nat} {text name rest : List Char}
    (h : closeDoctype? depth text = some (name, rest)) : rest.length < text.length := by
  induction text generalizing depth name with
  | nil => simp [closeDoctype?] at h
  | cons c text ih =>
    rw [closeDoctype?] at h
    split at h
    · obtain ⟨-, rfl⟩ : [] = name ∧ text = rest := by simpa using h
      simp
    · obtain ⟨cut, hcut, heq⟩ := Option.map_eq_some_iff.1 h
      obtain ⟨-, rfl⟩ : c :: cut.1 = name ∧ cut.2 = rest := by simpa using heq
      have := ih hcut
      simp only [List.length_cons]
      omega

theorem cut_behind_shorter {opening closing text before rest : List Char}
    (hclosing : closing ≠ [])
    (h : (Text.chop? opening text).bind (Text.cutAt? closing) = some (before, rest)) :
    rest.length < text.length := by
  obtain ⟨tail, hchop, hcut⟩ := Option.bind_eq_some_iff.1 h
  have hlen := List.length_pos_iff.2 hclosing
  rw [Text.chop?_eq_some_iff.1 hchop, Text.cutAt?_eq_some hcut]
  simp only [List.length_append]
  omega

theorem passDeclaration_shorter {text rest : List Char}
    (h : passDeclaration text = .ok rest) : rest.length < text.length := by
  unfold passDeclaration at h
  split at h
  · split at h
    · next hcut =>
      obtain rfl : _ = rest := by simpa using h
      exact cut_behind_shorter (by decide) hcut
    · simp at h
  · split at h
    · next hcut =>
      obtain rfl : _ = rest := by simpa using h
      exact cut_behind_shorter (by decide) hcut
    · simp at h
  · split at h
    · simp only at h
      split at h
      · split at h
        · next hclose =>
          split at h
          · simp at h
          · obtain rfl : _ = rest := by simpa using h
            have := closeDoctype?_shorter hclose
            simp only [List.length_drop] at this
            omega
        · simp at h
      · simp at h
    · simp at h
  · simp at h

theorem passReference_shorter {text rest : List Char}
    (h : passReference text = .ok rest) : rest.length < text.length := by
  unfold passReference at h
  split at h
  · next found heq =>
    obtain rfl : found = rest := by simpa using h
    have := (List.dropWhile_suffix (l := text)
      (fun c => c ≠ ';' && c ≠ '&' && c ≠ '<')).length_le
    rw [heq] at this
    exact this
  · simp at h

theorem markupAt_shorter {text rest : List Char}
    (h : markupAt text = .ok (.passed rest)) : rest.length < text.length := by
  unfold markupAt at h
  split at h
  · next text =>
    cases hpass : passDeclaration text with
    | error fault => simp [hpass, Except.map] at h
    | ok found =>
      obtain rfl : found = rest := by simpa [hpass, Except.map] using h
      have := passDeclaration_shorter hpass
      simp only [List.length_cons]
      omega
  · split at h
    · simp at h
    · split at h
      · next text _ _ before found hcut =>
        obtain rfl : found = rest := by simpa using h
        rw [Text.cutAt?_eq_some hcut]
        simp only [List.length_cons, List.length_append]
        omega
      · simp at h
  · split at h <;> simp at h

/-- What is passed over is not empty. -/
theorem nextMarkup_shorter {text rest : List Char}
    (h : nextMarkup text = .ok (.passed rest)) : rest.length < text.length := by
  have hlen := (List.dropWhile_suffix (l := text) (fun c => c ≠ '<' && c ≠ '&')).length_le
  unfold nextMarkup at h
  split at h
  · simp at h
  · next tail heq =>
    rw [heq] at hlen
    have := markupAt_shorter h
    simp only [List.length_cons] at hlen
    omega
  · next tail _ heq =>
    rw [heq] at hlen
    cases hpass : passReference tail with
    | error fault => simp [hpass, Except.map] at h
    | ok found =>
      obtain rfl : found = rest := by simpa [hpass, Except.map] using h
      have := passReference_shorter hpass
      simp only [List.length_cons] at hlen
      omega

/-- The text between `<` and `>` of the first start tag, if there is a start tag. -/
def firstTag? (text : List Char) : Except XmlFault (Option (List Char)) :=
  match _h : nextMarkup text with
  | .error fault => .error fault
  | .ok .nothing => .ok none
  | .ok (.startTag content) => .ok (some content)
  | .ok (.passed rest) => firstTag? rest
termination_by text.length
decreasing_by exact nextMarkup_shorter _h

end SmaliSieve.Xml
