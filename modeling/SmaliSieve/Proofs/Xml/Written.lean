/-
  SmaliSieve.Proofs.Xml.Written

  Documents as they are written, against the way they are read.

  `Misc` is what may stand in front of the root element, `Written` an attribute with all the
  white space that it may be laid out with. Both carry what makes them well formed, and no more:
  a comment may hold tags, and a value the character that closes a tag.

    * what stands in front of the root element is passed over, piece by piece
      (`firstTag?_misc`, `firstTag?_prolog`);
    * the search for the end of a tag crosses attributes, whatever is in their values
      (`Written.crossed`), so the tag is read as far as it goes (`firstTag?_tag`);
    * an attribute is read back with its key and its value (`nextAttribute_chars`), and one that
      stands behind others with other keys is found (`findValue_written`);
    * a value in which entities are written is read piece by piece (`ReadAs`), and the entities
      that `escape` writes are read back (`readAs_escape`).
-/

import SmaliSieve.Proofs.Text.Cutting
import SmaliSieve.Xml.Attribute
import SmaliSieve.Xml.Prolog
import SmaliSieve.Xml.Reference

namespace SmaliSieve.Xml

/-! ## In front of the root element -/

/-- What may stand in front of the root element. A declaration of the version is an
    instruction. The text of an instruction does not start with `>`, as `<?>` is refused. -/
inductive Misc where
  | blank (text : List Char) (isBlank : text.all Text.isBlank)
  | comment (text : List Char) (unclosed : ¬ "-->".toList <:+: text)
  | instruction (text : List Char) (unclosed : ¬ "?>".toList <:+: text)
      (opened : text.head? ≠ some '>')

/-- The characters of it. -/
def Misc.chars : Misc → List Char
  | blank text _ => text
  | comment text _ => "<!--".toList ++ (text ++ "-->".toList)
  | instruction text _ _ => "<?".toList ++ (text ++ "?>".toList)

/-- What is found next in the document decides where the first tag is. -/
theorem firstTag?_eq (text : List Char) :
    firstTag? text =
      match nextMarkup text with
      | .error fault => .error fault
      | .ok .nothing => .ok none
      | .ok (.startTag content) => .ok (some content)
      | .ok (.passed rest) => firstTag? rest := by
  rw [firstTag?]
  split <;> next h => rw [h]

theorem firstTag?_of_passed {text rest : List Char} (h : nextMarkup text = .ok (.passed rest)) :
    firstTag? text = firstTag? rest := by
  rw [firstTag?_eq, h]

theorem firstTag?_of_startTag {text content : List Char}
    (h : nextMarkup text = .ok (.startTag content)) : firstTag? text = .ok (some content) := by
  rw [firstTag?_eq, h]

theorem nextMarkup_markup (text : List Char) : nextMarkup ('<' :: text) = markupAt text := by
  rw [nextMarkup, List.dropWhile_cons_of_neg (by decide)]
  rfl

/-- White space is text, and text is left out. -/
theorem nextMarkup_blank {text : List Char} (h : text.all Text.isBlank) (rest : List Char) :
    nextMarkup (text ++ rest) = nextMarkup rest := by
  have hblank := List.all_eq_true.mp h
  have hall : ∀ c ∈ text, (decide (c ≠ '<') && decide (c ≠ '&')) = true := by
    intro c hmem
    have hlt : c ≠ '<' := fun heq => Text.not_mem_of_blank hblank (by decide) (heq ▸ hmem)
    have hamp : c ≠ '&' := fun heq => Text.not_mem_of_blank hblank (by decide) (heq ▸ hmem)
    simp [hlt, hamp]
  rw [nextMarkup, nextMarkup, List.dropWhile_append_of_pos hall]

theorem nextMarkup_comment {text : List Char} (h : ¬ "-->".toList <:+: text)
    (rest : List Char) :
    nextMarkup ("<!--".toList ++ (text ++ ("-->".toList ++ rest))) = .ok (.passed rest) := by
  have hcut : Text.cutAt? "-->".toList (text ++ ("-->".toList ++ rest)) = some (text, rest) :=
    Text.cutAt?_append (by decide : '>' ∉ ['-', '-']) h rest
  have hchop : Text.chop? "--".toList ('-' :: '-' :: (text ++ ("-->".toList ++ rest))) =
      some (text ++ ("-->".toList ++ rest)) := Text.chop?_eq_some_iff.mpr rfl
  show nextMarkup ('<' :: '!' :: '-' :: '-' :: (text ++ ("-->".toList ++ rest))) = _
  rw [nextMarkup_markup, markupAt, passDeclaration]
  simp only [List.head?_cons, hchop, Option.bind_some, hcut]
  rfl

theorem nextMarkup_instruction {text : List Char} (h : ¬ "?>".toList <:+: text)
    (hopened : text.head? ≠ some '>') (rest : List Char) :
    nextMarkup ("<?".toList ++ (text ++ ("?>".toList ++ rest))) = .ok (.passed rest) := by
  have hcut : Text.cutAt? "?>".toList (text ++ ("?>".toList ++ rest)) = some (text, rest) :=
    Text.cutAt?_append (by decide : '>' ∉ ['?']) h rest
  have hfirst : (text ++ ("?>".toList ++ rest)).head? ≠ some '>' := by
    cases text with
    | nil =>
      show some '?' ≠ some '>'
      decide
    | cons c text => exact hopened
  show nextMarkup ('<' :: '?' :: (text ++ ("?>".toList ++ rest))) = _
  rw [nextMarkup_markup, markupAt, if_neg hfirst]
  simp only [hcut]

/-- All of it is passed over. -/
theorem firstTag?_misc (misc : Misc) (rest : List Char) :
    firstTag? (misc.chars ++ rest) = firstTag? rest := by
  cases misc with
  | blank text h =>
    show firstTag? (text ++ rest) = _
    rw [firstTag?_eq, nextMarkup_blank h, ← firstTag?_eq]
  | comment text h =>
    rw [Misc.chars, List.append_assoc, List.append_assoc]
    exact firstTag?_of_passed (nextMarkup_comment h rest)
  | instruction text h hopened =>
    rw [Misc.chars, List.append_assoc, List.append_assoc]
    exact firstTag?_of_passed (nextMarkup_instruction h hopened rest)

theorem firstTag?_prolog (prolog : List Misc) (rest : List Char) :
    firstTag? (prolog.flatMap Misc.chars ++ rest) = firstTag? rest := by
  induction prolog with
  | nil => rfl
  | cons misc prolog ih => rw [List.flatMap_cons, List.append_assoc, firstTag?_misc, ih]

/-! ## The end of a tag -/

/-- The search for the end of a tag goes over the text as if it were not there. -/
def Crossed (piece : List Char) : Prop :=
  ∀ rest, tagContent? none (piece ++ rest) = (tagContent? none rest).map (piece ++ ·)

theorem crossed_nil : Crossed [] := fun rest => by simp

theorem Crossed.append {first second : List Char} (hfirst : Crossed first)
    (hsecond : Crossed second) : Crossed (first ++ second) := by
  intro rest
  rw [List.append_assoc, hfirst, hsecond, Option.map_map]
  exact congrArg (Option.map · (tagContent? none rest)) (funext fun text =>
    (List.append_assoc first second text).symm)

theorem crossed_flatMap {α : Type} {items : List α} {chars : α → List Char}
    (h : ∀ item ∈ items, Crossed (chars item)) : Crossed (items.flatMap chars) := by
  induction items with
  | nil => exact crossed_nil
  | cons item items ih =>
    obtain ⟨hitem, hitems⟩ := List.forall_mem_cons.mp h
    rw [List.flatMap_cons]
    exact hitem.append (ih hitems)

/-- A character that neither closes a tag nor opens a value. -/
def isPlain (c : Char) : Bool := c ≠ '>' && c ≠ '"' && c ≠ '\x27'

theorem crossed_plain {piece : List Char} (h : piece.all isPlain) : Crossed piece := by
  induction piece with
  | nil => exact crossed_nil
  | cons c piece ih =>
    rw [List.all_cons, Bool.and_eq_true] at h
    obtain ⟨hc, hpiece⟩ := h
    intro rest
    obtain ⟨⟨hclose, hdouble⟩, hsingle⟩ : (c ≠ '>' ∧ c ≠ '"') ∧ c ≠ '\x27' := by
      simpa [isPlain] using hc
    rw [List.cons_append, tagContent?]
    simp only [hclose, hdouble, hsingle, decide_false, Bool.false_and, Bool.or_self,
      Bool.false_eq_true, if_false]
    rw [ih hpiece, Option.map_map]
    rfl

/-- Within quotes the search goes on to the next quote of the kind. -/
theorem tagContent?_quoted {quote : Char} {value : List Char} (h : quote ∉ value)
    (rest : List Char) :
    tagContent? (some quote) (value ++ quote :: rest) =
      (tagContent? none rest).map (value ++ quote :: ·) := by
  induction value with
  | nil =>
    rw [List.nil_append, tagContent?]
    simp
  | cons c value ih =>
    rw [List.mem_cons, not_or] at h
    rw [List.cons_append, tagContent?]
    simp only [Ne.symm h.1, reduceCtorEq, decide_false, Bool.and_false, Bool.false_eq_true,
      if_false]
    rw [ih h.2, Option.map_map]
    rfl

theorem crossed_quoted {quote : Char} (hquote : quote = '"' ∨ quote = '\x27')
    {value : List Char} (h : quote ∉ value) : Crossed (quote :: (value ++ [quote])) := by
  intro rest
  have hopen : tagContent? none (quote :: (value ++ quote :: rest)) =
      (tagContent? (some quote) (value ++ quote :: rest)).map (quote :: ·) := by
    rcases hquote with rfl | rfl <;> rfl
  have hsplit : quote :: (value ++ [quote]) ++ rest = quote :: (value ++ quote :: rest) := by simp
  rw [hsplit, hopen, tagContent?_quoted h, Option.map_map]
  refine congrArg (Option.map · (tagContent? none rest)) (funext fun text => ?_)
  simp

/-- A tag that starts with a name and is crossed is read up to the `>` behind it. -/
theorem firstTag?_tag {c : Char} (hc : c ≠ '!' ∧ c ≠ '?' ∧ c ≠ '/') {content : List Char}
    (h : Crossed (c :: content)) (rest : List Char) :
    firstTag? ('<' :: (c :: content ++ '>' :: rest)) = .ok (some (c :: content)) := by
  have hcontent : tagContent? none (c :: content ++ '>' :: rest) = some (c :: content) := by
    rw [h]
    simp [tagContent?]
  refine firstTag?_of_startTag ?_
  rw [nextMarkup_markup, List.cons_append, markupAt]
  · rw [List.cons_append] at hcontent
    rw [hcontent]
    simp [hc.2.2]
  · rintro text hhead
    exact hc.1 (List.cons.inj hhead).1
  · rintro text hhead
    exact hc.2.1 (List.cons.inj hhead).1

/-! ## Attributes -/

/-- How an attribute is laid out: the white space in front of it, in front of the sign and behind
    the sign, and the quotes around the value. -/
structure Spacing where
  gap : List Char
  beforeSign : List Char
  afterSign : List Char
  quote : Char
  gap_ne_nil : gap ≠ [] := by decide
  gap_space : gap.all isSpace := by decide
  beforeSign_space : beforeSign.all isSpace := by decide
  afterSign_space : afterSign.all isSpace := by decide
  isQuote : quote = '"' ∨ quote = '\x27' := by decide

/-- An attribute as it is written. -/
structure Written extends Spacing where
  key : List Char
  value : List Char
  key_ne_nil : key ≠ [] := by decide
  key_chars : key.all fun c => isKeyChar c && isPlain c := by decide
  quote_not_mem : quote ∉ value := by decide

/-- The characters of the attribute. -/
def Written.chars (written : Written) : List Char :=
  written.gap ++ (written.key ++ (written.beforeSign ++ ('=' :: (written.afterSign ++
    (written.quote :: (written.value ++ [written.quote]))))))

theorem isPlain_of_isSpace {c : Char} (h : isSpace c = true) : isPlain c = true := by
  have hcases : ((c = ' ' ∨ c = '\t') ∨ c = '\n') ∨ c = '\r' := by simpa [isSpace] using h
  rcases hcases with ((rfl | rfl) | rfl) | rfl <;> decide

theorem isKeyChar_of_isSpace {c : Char} (h : isSpace c = true) : isKeyChar c = false := by
  simp [isKeyChar, h]

theorem crossed_space {space : List Char} (h : space.all isSpace) : Crossed space :=
  crossed_plain (List.all_eq_true.mpr fun c hmem =>
    isPlain_of_isSpace (List.all_eq_true.mp h c hmem))

theorem Written.isKeyChar (written : Written) {c : Char} (h : c ∈ written.key) :
    isKeyChar c = true := by
  have hboth := List.all_eq_true.mp written.key_chars c h
  rw [Bool.and_eq_true] at hboth
  exact hboth.1

theorem Written.isPlain (written : Written) {c : Char} (h : c ∈ written.key) :
    isPlain c = true := by
  have hboth := List.all_eq_true.mp written.key_chars c h
  rw [Bool.and_eq_true] at hboth
  exact hboth.2

/-- Whatever is in the value, the tag does not end there. -/
theorem Written.crossed (written : Written) : Crossed written.chars := by
  have hkey : Crossed written.key :=
    crossed_plain (List.all_eq_true.mpr fun c hmem => written.isPlain hmem)
  have hsign : Crossed ['='] := crossed_plain (by decide)
  have hvalue := crossed_quoted written.isQuote written.quote_not_mem
  exact (crossed_space written.gap_space).append (hkey.append
    ((crossed_space written.beforeSign_space).append
      (hsign.append ((crossed_space written.afterSign_space).append hvalue))))

/-- A value is read up to the quote that it was opened with. -/
theorem readValue_quoted {space : List Char} (hspace : space.all isSpace) {quote : Char}
    (hquote : quote = '"' ∨ quote = '\x27') {value : List Char}
    (h : quote ∉ value) (length : Nat) (rest : List Char) :
    readValue length (space ++ quote :: (value ++ quote :: rest)) = .ok (value, rest) := by
  have hnot : isSpace quote = false := by rcases hquote with rfl | rfl <;> decide
  have hinfix : ¬ [] ++ [quote] <:+: value :=
    fun hin => h (hin.subset (List.mem_append_right [] (List.mem_singleton_self quote)))
  have hcut : Text.cutAt? [quote] (value ++ quote :: rest) = some (value, rest) :=
    Text.cutAt?_append List.not_mem_nil hinfix rest
  rw [readValue, (Text.takeWhile_dropWhile_run (List.all_eq_true.mp hspace) hnot _).2]
  simp only [hcut]
  rw [if_pos (by simpa using hquote)]

/-- A key ends where the sign comes, after white space or at once. -/
theorem key_run {key space : List Char} (hkey : ∀ c ∈ key, isKeyChar c = true)
    (hspace : space.all isSpace) (rest : List Char) :
    (key ++ (space ++ '=' :: rest)).takeWhile isKeyChar = key ∧
      (key ++ (space ++ '=' :: rest)).dropWhile isKeyChar = space ++ '=' :: rest := by
  cases space with
  | nil => exact Text.takeWhile_dropWhile_run hkey (by decide) rest
  | cons c space =>
    have hc : isKeyChar c = false :=
      isKeyChar_of_isSpace (List.all_eq_true.mp hspace c List.mem_cons_self)
    exact Text.takeWhile_dropWhile_run hkey hc _

/-- An attribute whose key was not seen before is read with its key and its value, and what
    stands behind it is left. -/
theorem nextAttribute_chars (written : Written) {seen : List (List Char × Nat)}
    (hseen : seen.lookup written.key = none) (length : Nat) (rest : List Char) :
    ∃ position, nextAttribute length seen (written.chars ++ rest) =
      .ok (some ⟨⟨written.key, written.value⟩, position, rest⟩) := by
  obtain ⟨c, more, hkey⟩ := List.exists_cons_of_ne_nil written.key_ne_nil
  have hkeyChar : ∀ d ∈ c :: more, Xml.isKeyChar d = true :=
    fun d hmem => written.isKeyChar (hkey ▸ hmem)
  have hc : isSpace c = false := by
    have hfirst := hkeyChar c List.mem_cons_self
    by_contra hspace
    rw [isKeyChar_of_isSpace (by simpa using hspace)] at hfirst
    cases hfirst
  set behind := written.afterSign ++ written.quote :: (written.value ++ written.quote :: rest)
    with hbehind
  have hchars : written.chars ++ rest =
      written.gap ++ (c :: (more ++ (written.beforeSign ++ '=' :: behind))) := by
    simp [Written.chars, hkey, hbehind]
  -- the text is read part by part: the gap, the key, the sign and the value
  have hgap := (Text.takeWhile_dropWhile_run (List.all_eq_true.mp written.gap_space) hc
    (more ++ (written.beforeSign ++ '=' :: behind))).2
  obtain ⟨htake, hdrop⟩ := key_run (fun d hmem => hkeyChar d (List.mem_cons_of_mem c hmem))
    written.beforeSign_space behind
  have hsign := (Text.takeWhile_dropWhile_run (List.all_eq_true.mp written.beforeSign_space)
    (by decide : isSpace '=' = false) behind).2
  have hvalue : readValue length behind = .ok (written.value, rest) :=
    readValue_quoted written.afterSign_space written.isQuote written.quote_not_mem length rest
  rw [hkey] at hseen
  rw [hchars, hkey, nextAttribute, hgap]
  simp only [htake, hdrop, hsign, hseen, hvalue]
  exact ⟨_, rfl⟩

/-- An attribute that was read is the one that is looked for, or the search goes on behind it. -/
theorem findValue_of_reading {key : List Char} {length : Nat} {seen : List (List Char × Nat)}
    {text : List Char} {reading : Reading}
    (h : nextAttribute length seen text = .ok (some reading)) :
    findValue key length seen text =
      if reading.entry.key = key then .ok (some reading.entry.value)
      else findValue key length ((reading.entry.key, reading.position) :: seen) reading.rest := by
  rw [findValue]
  split
  · next hread => cases h.symm.trans hread
  · next hread => cases h.symm.trans hread
  · next found hread =>
    obtain rfl : reading = found := by simpa using h.symm.trans hread
    rfl

/-- Behind attributes with keys of their own the one that is looked for is found. What stands
    behind it is not looked at. -/
theorem findValue_written {key : List Char} {before : List Written} {named : Written}
    (hkey : named.key = key) (hbefore : ∀ written ∈ before, written.key ≠ key)
    (hdistinct : (before.map (·.key)).Nodup) (length : Nat) {seen : List (List Char × Nat)}
    (hseen : ∀ written ∈ before ++ [named], seen.lookup written.key = none) (rest : List Char) :
    findValue key length seen (before.flatMap Written.chars ++ (named.chars ++ rest)) =
      .ok (some named.value) := by
  induction before generalizing seen with
  | nil =>
    obtain ⟨position, hread⟩ :=
      nextAttribute_chars named (hseen named (by simp)) length rest
    rw [List.flatMap_nil, List.nil_append, findValue_of_reading hread, if_pos hkey]
  | cons first before ih =>
    obtain ⟨hfirst, hothers⟩ := List.forall_mem_cons.mp hbefore
    rw [List.map_cons, List.nodup_cons] at hdistinct
    obtain ⟨position, hread⟩ := nextAttribute_chars first (hseen first (by simp)) length
      (before.flatMap Written.chars ++ (named.chars ++ rest))
    rw [List.flatMap_cons, List.append_assoc, findValue_of_reading hread, if_neg hfirst]
    refine ih hothers hdistinct.2 fun written hmem => ?_
    -- no attribute that is still to come has the key of the one that was read
    have hne : written.key ≠ first.key := by
      rcases List.mem_append.mp hmem with hin | hin
      · intro hsame
        exact hdistinct.1 (hsame ▸ List.mem_map_of_mem hin)
      · rw [List.mem_singleton.mp hin, hkey]
        exact hfirst.symm
    have hbeq : (written.key == first.key) = false := by simpa using hne
    rw [List.lookup_cons, hbeq]
    exact hseen written (List.mem_cons_of_mem first hmem)

/-! ## Tags with attributes -/

/-- An attribute starts with white space. -/
theorem Written.exists_cons (written : Written) :
    ∃ c more, isSpace c = true ∧ written.chars = c :: more := by
  obtain ⟨c, gap, hgap⟩ := List.exists_cons_of_ne_nil written.gap_ne_nil
  have hspace : isSpace c = true := List.all_eq_true.mp written.gap_space c (by simp [hgap])
  exact ⟨c, _, hspace, by rw [Written.chars, hgap]; rfl⟩

/-- An attribute ends with the quote of its value. -/
theorem Written.getLast?_chars (written : Written) :
    written.chars.getLast? = some written.quote := by
  simp [Written.chars, List.getLast?_append, List.getLast?_cons]

theorem getLast?_append_ne {c : Char} {first second : List Char}
    (hfirst : first.getLast? ≠ some c) (hsecond : second.getLast? ≠ some c) :
    (first ++ second).getLast? ≠ some c := by
  rw [List.getLast?_append]
  cases hlast : second.getLast? with
  | none => exact hfirst
  | some d => rwa [hlast] at hsecond

/-- The slash of an empty element is dropped, and attributes do not end with one. -/
theorem ofContent_append {front : List Char} (h : front.getLast? ≠ some '/') (isEmpty : Bool) :
    StartTag.ofContent (front ++ if isEmpty then ['/'] else []) = ⟨front⟩ := by
  cases isEmpty with
  | true => simp [StartTag.ofContent]
  | false => simp [StartTag.ofContent, h]

/-- The name of a tag ends where the white space in front of the first attribute starts. -/
theorem name_and_attributeText {name attributes : List Char} (hname : name.all (!isSpace ·))
    (hattributes : ∃ c more, isSpace c = true ∧ attributes = c :: more) :
    (StartTag.mk (name ++ attributes)).name = name ∧
      (StartTag.mk (name ++ attributes)).attributeText = attributes := by
  obtain ⟨c, more, hspace, rfl⟩ := hattributes
  exact Text.takeWhile_dropWhile_run (List.all_eq_true.mp hname) (by simp [hspace]) more

/-! ## References -/

/-- Wherever it stands in a value, the written text is read as the other one. -/
def ReadAs (written text : List Char) : Prop :=
  ∀ length offset rest, ∃ next, unescapeFrom length .plain offset (written ++ rest) =
    (unescapeFrom length .plain next rest).map (text ++ ·)

theorem except_map_map {ε α β γ : Type} (result : Except ε α) (f : α → β) (g : β → γ) :
    (result.map f).map g = result.map (g ∘ f) := by
  cases result <;> rfl

theorem readAs_nil : ReadAs [] [] := by
  intro length offset rest
  refine ⟨offset, ?_⟩
  cases hrest : unescapeFrom length .plain offset rest <;> simp [hrest, Except.map]

theorem ReadAs.append {first second text more : List Char} (hfirst : ReadAs first text)
    (hsecond : ReadAs second more) : ReadAs (first ++ second) (text ++ more) := by
  intro length offset rest
  obtain ⟨middle, hmiddle⟩ := hfirst length offset (second ++ rest)
  obtain ⟨next, hnext⟩ := hsecond length middle rest
  refine ⟨next, ?_⟩
  rw [List.append_assoc, hmiddle, hnext, except_map_map]
  exact congrArg (Except.map · _) (funext fun found => (List.append_assoc text more found).symm)

theorem readAs_singleton {c : Char} (h : c ≠ '&') : ReadAs [c] [c] := by
  intro length offset rest
  refine ⟨offset + c.utf8Size, ?_⟩
  rw [List.singleton_append, unescapeFrom, if_neg h]
  rfl

theorem readAs_self {text : List Char} (h : '&' ∉ text) : ReadAs text text := by
  induction text with
  | nil => exact readAs_nil
  | cons c text ih =>
    rw [List.mem_cons, not_or] at h
    exact (readAs_singleton (Ne.symm h.1)).append (ih h.2)

/-- A reference is read up to its `;`. -/
theorem unescapeFrom_reference {name : List Char} (hopen : '&' ∉ name) (hclose : ';' ∉ name)
    (length start offset : Nat) (seen rest : List Char) :
    ∃ next, unescapeFrom length (.reference start seen) offset (name ++ ';' :: rest) = do
      let char ← referencedChar (start + 1) (seen.reverse ++ name)
      let more ← unescapeFrom length .plain next rest
      return char :: more := by
  induction name generalizing offset seen with
  | nil =>
    refine ⟨offset + 1, ?_⟩
    rw [List.nil_append, List.append_nil, unescapeFrom, if_neg (by decide), if_pos rfl]
  | cons d name ih =>
    rw [List.mem_cons, not_or] at hopen hclose
    obtain ⟨next, hnext⟩ := ih hopen.2 hclose.2 (offset + d.utf8Size) (d :: seen)
    refine ⟨next, ?_⟩
    rw [List.cons_append, unescapeFrom, if_neg (Ne.symm hopen.1), if_neg (Ne.symm hclose.1),
      hnext, List.reverse_cons, List.append_assoc, List.singleton_append]

/-- A predefined entity is read as its character. -/
theorem readAs_entity {name : List Char} {c : Char} (h : (name, c) ∈ entities) :
    ReadAs ('&' :: name ++ [';']) [c] := by
  intro length offset rest
  obtain ⟨hopen, hclose, hchar⟩ :
      '&' ∉ name ∧ ';' ∉ name ∧ referencedChar (offset + 1) name = .ok c := by
    simp only [entities, List.mem_cons, List.not_mem_nil, or_false, Prod.mk.injEq] at h
    rcases h with ⟨rfl, rfl⟩ | ⟨rfl, rfl⟩ | ⟨rfl, rfl⟩ | ⟨rfl, rfl⟩ | ⟨rfl, rfl⟩ <;>
      exact ⟨by decide, by decide, rfl⟩
  obtain ⟨next, hnext⟩ := unescapeFrom_reference hopen hclose length offset (offset + 1) [] rest
  refine ⟨next, ?_⟩
  have hsplit : '&' :: name ++ [';'] ++ rest = '&' :: (name ++ ';' :: rest) := by simp
  rw [hsplit, unescapeFrom, if_pos rfl, hnext, List.reverse_nil, List.nil_append, hchar]
  cases unescapeFrom length .plain next rest <;> rfl

theorem escape_cons (c : Char) (text : List Char) :
    escape (c :: text) = escape [c] ++ escape text := by
  simp [escape]

/-- A character is written as the entity that stands for it, or as itself if there is none. -/
theorem escape_singleton (c : Char) :
    (∃ name, (name, c) ∈ entities ∧ escape [c] = '&' :: name ++ [';']) ∨
      (∀ entry ∈ entities, entry.2 ≠ c) ∧ escape [c] = [c] := by
  cases hfind : entities.find? (·.2 = c) with
  | some entry =>
    obtain ⟨name, found⟩ := entry
    obtain rfl : found = c := by simpa using List.find?_some hfind
    exact .inl ⟨name, List.mem_of_find?_eq_some hfind, by simp [escape, hfind]⟩
  | none =>
    refine .inr ⟨fun entry hmem => ?_, by simp [escape, hfind]⟩
    simpa using List.find?_eq_none.mp hfind entry hmem

theorem readAs_escape (text : List Char) : ReadAs (escape text) text := by
  induction text with
  | nil => exact readAs_nil
  | cons c text ih =>
    have hfirst : ReadAs (escape [c]) [c] := by
      obtain ⟨name, hmem, heq⟩ | ⟨hnone, heq⟩ := escape_singleton c <;> rw [heq]
      · exact readAs_entity hmem
      · exact readAs_singleton (Ne.symm (hnone ("amp".toList, '&') (by decide)))
    rw [escape_cons]
    exact hfirst.append ih

/-- No quotes are left, so what is written can stand within quotes of either kind. -/
theorem quote_not_mem_escape {quote : Char} (hquote : quote = '"' ∨ quote = '\x27')
    (text : List Char) : quote ∉ escape text := by
  induction text with
  | nil => exact List.not_mem_nil
  | cons c text ih =>
    have hfirst : quote ∉ escape [c] := by
      obtain ⟨name, hmem, heq⟩ | ⟨hnone, heq⟩ := escape_singleton c <;> rw [heq]
      · have hnames : ∀ entry ∈ entities, '"' ∉ '&' :: entry.1 ++ [';'] ∧
            '\x27' ∉ '&' :: entry.1 ++ [';'] := by decide
        rcases hquote with rfl | rfl
        · exact (hnames _ hmem).1
        · exact (hnames _ hmem).2
      · have hentity : ∃ name, (name, quote) ∈ entities := by
          rcases hquote with rfl | rfl
          · exact ⟨"quot".toList, by decide⟩
          · exact ⟨"apos".toList, by decide⟩
        obtain ⟨name, hmem⟩ := hentity
        rw [List.mem_singleton]
        exact hnone (name, quote) hmem
    rw [escape_cons, List.mem_append, not_or]
    exact ⟨hfirst, ih⟩

/-- A value is read as what is written in it. -/
theorem unescape_of_readAs {written text : List Char} (h : ReadAs written text) :
    unescape written = .ok text := by
  obtain ⟨next, hnext⟩ := h (Text.byteLength written) 0 []
  rw [List.append_nil] at hnext
  rw [unescape, hnext, unescapeFrom]
  simp [Except.map]

end SmaliSieve.Xml
