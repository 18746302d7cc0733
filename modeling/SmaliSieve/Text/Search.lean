/-
  SmaliSieve.Text.Search

  Looking for a fixed piece of text: at the start (`chop?`), anywhere (`cutAt?`), or up
  to a delimiter. What is found comes back as the text that follows, so the readers of
  this library walk over the remaining text and never over positions.
-/

namespace SmaliSieve.Text

/-- What follows `piece` in `text`, if `text` starts with it. -/
def chop? : List Char → List Char → Option (List Char)
  | [], text => some text
  | _ :: _, [] => none
  | p :: piece, c :: text => if p = c then chop? piece text else none

/-- What stands before and after the first occurrence of `piece` in `text`. -/
def cutAt? (piece : List Char) : List Char → Option (List Char × List Char)
  | [] => if piece.isEmpty then some ([], []) else none
  | c :: text =>
    match chop? piece (c :: text) with
    | some rest => some ([], rest)
    | none => (cutAt? piece text).map fun cut => (c :: cut.1, cut.2)

/-- `text` starts with `piece`. -/
def startsWith (text piece : List Char) : Bool :=
  (chop? piece text).isSome

/-- The number of bytes that `text` takes in UTF-8. -/
def byteLength : List Char → Nat
  | [] => 0
  | c :: rest => c.utf8Size + byteLength rest

@[simp] theorem byteLength_append (text more : List Char) :
    byteLength (text ++ more) = byteLength text + byteLength more := by
  induction text with
  | nil => simp [byteLength]
  | cons c rest ih => simp [byteLength, ih, Nat.add_assoc]

/-- Each `old` written as `new`. -/
def replaceChar (old new : Char) (text : List Char) : List Char :=
  text.map fun c => if c = old then new else c

theorem chop?_eq_some_iff {piece text rest : List Char} :
    chop? piece text = some rest ↔ text = piece ++ rest := by
  induction piece generalizing text with
  | nil => simp [chop?, eq_comm]
  | cons p piece ih =>
    cases text with
    | nil => simp [chop?]
    | cons c text =>
      by_cases h : p = c
      · simp [chop?, h, ih]
      · simp [chop?, h, Ne.symm h]

theorem cutAt?_eq_some {piece text before after : List Char}
    (h : cutAt? piece text = some (before, after)) : text = before ++ piece ++ after := by
  induction text generalizing before with
  | nil =>
    cases piece with
    | nil =>
      obtain ⟨rfl, rfl⟩ : [] = before ∧ [] = after := by simpa [cutAt?] using h
      rfl
    | cons c piece => simp [cutAt?] at h
  | cons c text ih =>
    rw [cutAt?] at h
    split at h
    · next rest hrest =>
      obtain ⟨rfl, rfl⟩ : [] = before ∧ rest = after := by simpa using h
      simpa using chop?_eq_some_iff.1 hrest
    · obtain ⟨cut, hcut, heq⟩ := Option.map_eq_some_iff.1 h
      obtain ⟨rfl, rfl⟩ : c :: cut.1 = before ∧ cut.2 = after := by simpa using heq
      simp [ih hcut]

end SmaliSieve.Text
