/-
  SmaliSieve.Proofs.Json.RoundTrip

  JSON that is written is read as it was.

  A reader takes each piece of what is written, whatever follows it: white space (`read_spaces`),
  a mark (`read_mark`), a string (`read_quote`), a word that something else ends (`read_word`). From
  these pieces a value is put together as it is written (`reads`), by recursion over the value, with
  the items of its arrays and the members of its objects. What is decoded in the end is the value
  itself (`decode_text`), with its numbers as they are and its strings character for character.
-/

import Mathlib.Data.List.Basic
import SmaliSieve.Proofs.Json.Decoding
import SmaliSieve.Proofs.Text.Cutting

namespace SmaliSieve.Report.Json

/-! ## Values -/

mutual

/-- The value that a reader has of what is written. -/
def value : Json → Value
  | .null => .null
  | .number n => .number n
  | .string text => .string text
  | .array items => .array (itemValues items)
  | .object members => .object (memberValues members)

/-- The values of the items of an array. -/
def itemValues : List Json → List Value
  | [] => []
  | item :: rest => item.value :: itemValues rest

/-- The members of an object with their values. -/
def memberValues : List (String × Json) → List (String × Value)
  | [] => []
  | (key, member) :: rest => (key, member.value) :: memberValues rest

end

theorem itemValues_eq_map (items : List Json) : itemValues items = items.map value := by
  induction items with
  | nil => rfl
  | cons item rest ih => rw [itemValues, ih, List.map_cons]

theorem memberValues_eq_map (members : List (String × Json)) :
    memberValues members = members.map fun member => (member.1, member.2.value) := by
  induction members with
  | nil => rfl
  | cons member rest ih =>
    obtain ⟨key, json⟩ := member
    rw [memberValues, ih, List.map_cons]

/-! ## Numbers -/

/-- No number but zero is written with a zero in front. -/
theorem eq_zero_of_head?_toDigits {n : Nat} (h : (Nat.toDigits 10 n).head? = some '0') :
    n = 0 := by
  -- the first digit of a large number is that of a tenth of it
  induction n using Nat.strong_induction_on with
  | h n ih =>
    by_cases hsmall : n < 10
    · have hdigit : ∀ m < 10, Nat.digitChar m = '0' → m = 0 := by decide
      rw [Nat.toDigits_of_lt_base hsmall, List.head?_cons] at h
      exact hdigit n hsmall (Option.some.inj h)
    · have hlarge : 10 ≤ n := Nat.le_of_not_lt hsmall
      rw [Nat.toDigits_of_base_le (by decide) hlarge,
        List.head?_append_of_ne_nil _ Nat.toDigits_ne_nil] at h
      have hzero := ih (n / 10) (by omega) h
      omega

theorem digits?_toDigits (n : Nat) :
    digits? (Nat.toDigits 10 n) = some (Nat.toDigits 10 n, []) := by
  have hdigit : ∀ c ∈ Nat.toDigits 10 n, c.isDigit = true := fun c hc =>
    Nat.isDigit_of_mem_toDigits (by decide) (by decide) hc
  rw [digits?, List.takeWhile_eq_self_iff.mpr hdigit, List.dropWhile_eq_nil_iff.mpr hdigit,
    if_neg Nat.toDigits_ne_nil]

theorem whole?_toDigits (n : Nat) : whole? (Nat.toDigits 10 n) = some (Nat.toDigits 10 n, []) := by
  have hzero : ¬ ((Nat.toDigits 10 n).head? = some '0' ∧ (Nat.toDigits 10 n).length ≠ 1) := by
    rintro ⟨hhead, hlength⟩
    rw [eq_zero_of_head?_toDigits hhead] at hlength
    exact hlength rfl
  rw [whole?, digits?_toDigits]
  simpa using hzero

theorem magnitude?_toDigits (n : Nat) : magnitude? (Nat.toDigits 10 n) = some (n : ℚ) := by
  rw [magnitude?, whole?_toDigits]
  simp [fraction?, exponent?, Nat.ofDigitChars_ten_toDigits]

/-- A natural number, as it is written. -/
theorem plain?_toString (n : Nat) : plain? (toString n).toList = some (.number n) := by
  -- the first character is a digit, so that this is no other word and has no sign
  obtain ⟨c, more, hdigits⟩ := List.exists_cons_of_ne_nil (Nat.toDigits_ne_nil (b := 10) (n := n))
  have hc : c.isDigit = true := Nat.isDigit_of_mem_toDigits (b := 10) (n := n) (by decide)
    (by decide) (by rw [hdigits]; exact List.mem_cons_self)
  have hnumber : number? (Nat.toDigits 10 n) = some (n : ℚ) := by
    rw [hdigits, number?, ← hdigits, magnitude?_toDigits]
    rintro word heq
    obtain ⟨rfl, -⟩ := List.cons.inj heq
    exact absurd hc (by decide)
  have hword : ∀ word : List Char, word.head?.all (!Char.isDigit ·) → Nat.toDigits 10 n ≠ word := by
    rintro word hhead rfl
    rw [hdigits, List.head?_cons, Option.all_some, hc] at hhead
    cases hhead
  rw [Nat.toString_eq_ofList_toDigits, String.toList_ofList, plain?, if_neg (hword _ (by decide)),
    if_neg (hword _ (by decide)), if_neg (hword _ (by decide)), hnumber, Option.map_some]

/-! ## Strings -/

theorem hexValue?_hexDigit : ∀ n < 16, hexValue? (hexDigit n) = some n := by decide

theorem escapeLetters_lookup : ∀ pair ∈ shortEscapes,
    escapeLetters.lookup pair.2 = some pair.1 ∧ pair.2 ≠ 'u' := by decide

/-- The code unit of a control character is written with two zeros and two digits. -/
theorem singleChar?_control {c : Char} (h : c.toNat < 0x20) :
    ((codeUnit? '0' '0' (hexDigit (c.toNat / 16)) (hexDigit (c.toNat % 16))).bind singleChar?) =
      some c := by
  have hunit : codeUnit? '0' '0' (hexDigit (c.toNat / 16)) (hexDigit (c.toNat % 16)) =
      some c.toNat := by
    have hzero : hexValue? '0' = some 0 := by decide
    rw [codeUnit?, hzero, hexValue?_hexDigit _ (by omega), hexValue?_hexDigit _ (by omega)]
    simp only [Option.bind_eq_bind, Option.bind_some, Option.pure_def, Option.some.injEq]
    omega
  have hsingle : (isLeading c.toNat || isTrailing c.toNat) = false := by
    simp [isLeading, isTrailing]
    omega
  rw [hunit, Option.bind_some, singleChar?, hsingle]
  simp [Char.ofNat_toNat]

/-- All that can be written for a character. -/
theorem escapeChar_cases (c : Char) :
    (∃ letter, (c, letter) ∈ shortEscapes ∧ escapeChar c = ['\\', letter]) ∨
    (c.toNat < 0x20 ∧ escapeChar c =
      ['\\', 'u', '0', '0', hexDigit (c.toNat / 16), hexDigit (c.toNat % 16)]) ∨
    (¬ c.toNat < 0x20 ∧ c ≠ '\\' ∧ c ≠ '"' ∧ escapeChar c = [c]) := by
  rw [escapeChar]
  split
  · next letter hletter =>
    obtain ⟨front, back, heq, -⟩ := List.lookup_eq_some_iff.mp hletter
    exact .inl ⟨letter, heq ▸ List.mem_append_right _ List.mem_cons_self, rfl⟩
  · next hnone =>
    split
    · next hcontrol => exact .inr (.inl ⟨hcontrol, rfl⟩)
    · next hplain =>
      refine .inr (.inr ⟨hplain, ?_, ?_, rfl⟩)
      · rintro rfl
        cases hnone
      · rintro rfl
        cases hnone

theorem unescape_escapeChar (c : Char) (rest : List Char) :
    unescape (escapeChar c ++ rest) = (unescape rest).map (c :: ·) := by
  rcases escapeChar_cases c with
    ⟨letter, hmem, hchars⟩ | ⟨hcontrol, hchars⟩ | ⟨hplain, hslash, -, hchars⟩
  · obtain ⟨hlookup, hletter⟩ := escapeLetters_lookup _ hmem
    rw [hchars]
    show unescape ('\\' :: letter :: rest) = _
    rw [unescape, hlookup]
    · cases unescape rest <;> rfl
    · rintro a b c d more rfl
      exact absurd rfl hletter
  · rw [hchars]
    show unescape ('\\' :: 'u' :: '0' :: '0' :: _ :: _ :: rest) = _
    obtain ⟨unit, hunit, hsingle⟩ := Option.bind_eq_some_iff.mp (singleChar?_control hcontrol)
    rw [unescape, hunit, Option.bind_eq_bind, Option.bind_some, hsingle]
    cases unescape rest <;> rfl
  · rw [hchars, List.singleton_append, unescape, if_neg (by simp [hslash, hplain])]
    · rintro a b c d more rfl
      exact absurd rfl hslash
    · rintro letter more rfl
      exact absurd rfl hslash

theorem unescape_flatMap (text : List Char) : unescape (text.flatMap escapeChar) = some text := by
  induction text with
  | nil => rfl
  | cons c text ih => rw [List.flatMap_cons, unescape_escapeChar, ih, Option.map_some]

/-! ## Pieces of text -/

section Reader

variable (state : State) (rest : List Char)

theorem read_cons (reader : Reader) (c : Char) :
    reader.read (c :: rest) = (reader.step c).bind (·.read rest) := by
  rw [Reader.read, List.foldlM_cons, Option.bind_eq_bind, Option.bind_assoc]
  rfl

/-- A piece of text that takes one reader to another one. -/
theorem read_append {reader next : Reader} {text : List Char}
    (h : text.foldlM Reader.step reader = some next) :
    reader.read (text ++ rest) = next.read rest := by
  rw [Reader.read, List.foldlM_append, h]
  rfl

theorem read_spaces {spaces : List Char} (h : ∀ c ∈ spaces, isSpace c = true) :
    Reader.read ⟨.gap, state⟩ (spaces ++ rest) = Reader.read ⟨.gap, state⟩ rest := by
  induction spaces with
  | nil => rfl
  | cons c spaces ih =>
    obtain ⟨hc, hspaces⟩ := List.forall_mem_cons.mp h
    have hstep : Reader.step ⟨.gap, state⟩ c = some ⟨.gap, state⟩ := if_pos hc
    rw [List.cons_append, read_cons, hstep, Option.bind_some, ih hspaces]

theorem read_newLine (level : Nat) :
    Reader.read ⟨.gap, state⟩ (newLine level ++ rest) = Reader.read ⟨.gap, state⟩ rest := by
  apply read_spaces
  intro c hc
  rcases List.mem_cons.mp hc with rfl | hc
  · rfl
  · rw [List.eq_of_mem_replicate hc]
    rfl

theorem read_mark {c : Char} {token : Token} (hmark : marks.lookup c = some token)
    (hspace : isSpace c = false) :
    Reader.read ⟨.gap, state⟩ (c :: rest) =
      (state.step token).bind fun next => Reader.read ⟨.gap, next⟩ rest := by
  have hstep : Reader.step ⟨.gap, state⟩ c = (state.step token).map (⟨.gap, ·⟩) := by
    show state.takeChar c = _
    rw [State.takeChar, hspace, if_neg Bool.false_ne_true, hmark]
  rw [read_cons, hstep, Option.bind_map]
  rfl

/-- Within a string, what is written for a character is taken as it is. -/
theorem foldlM_escapeChar (front : List Char) (c : Char) :
    (escapeChar c).foldlM Reader.step ⟨.body front, state⟩ =
      some ⟨.body (front ++ escapeChar c), state⟩ := by
  rcases escapeChar_cases c with
    ⟨letter, -, hchars⟩ | ⟨hcontrol, hchars⟩ | ⟨-, hslash, hquote, hchars⟩
  · rw [hchars]
    simp [Reader.step]
  · have hdigit : ∀ n < 16, hexDigit n ≠ '"' ∧ hexDigit n ≠ '\\' := by decide
    obtain ⟨hhigh, hhigh'⟩ := hdigit (c.toNat / 16) (by omega)
    obtain ⟨hlow, hlow'⟩ := hdigit (c.toNat % 16) (by omega)
    rw [hchars]
    simp [Reader.step, hhigh, hhigh', hlow, hlow']
  · rw [hchars]
    simp [Reader.step, hslash, hquote]

theorem foldlM_flatMap_escapeChar (front text : List Char) :
    (text.flatMap escapeChar).foldlM Reader.step ⟨.body front, state⟩ =
      some ⟨.body (front ++ text.flatMap escapeChar), state⟩ := by
  induction text generalizing front with
  | nil => simp
  | cons c text ih =>
    rw [List.flatMap_cons, List.foldlM_append, foldlM_escapeChar, Option.bind_eq_bind,
      Option.bind_some, ih, List.append_assoc]

/-- A string is one token, whatever characters it has. -/
theorem read_quote (text : String) :
    Reader.read ⟨.gap, state⟩ (quote text.toList ++ rest) =
      (state.step (.string text)).bind fun next => Reader.read ⟨.gap, next⟩ rest := by
  have hopen : Reader.step ⟨.gap, state⟩ '"' = some ⟨.body [], state⟩ := rfl
  have hclose : Reader.step ⟨.body (text.toList.flatMap escapeChar), state⟩ '"' =
      (state.step (.string text)).map (⟨.gap, ·⟩) := by
    show (unescape _).bind _ = _
    rw [unescape_flatMap, Option.bind_some, String.ofList_toList]
  rw [quote, List.cons_append, List.cons_append, read_cons, hopen, Option.bind_some,
    List.append_assoc, read_append _ (foldlM_flatMap_escapeChar state [] text.toList),
    List.nil_append, List.singleton_append, read_cons, hclose, Option.bind_map]
  rfl

/-- Something that ends a word follows, or nothing at all. -/
def EndsWord (rest : List Char) : Prop := ∀ c, rest.head? = some c → inWord c = false

theorem foldlM_word (front : List Char) {word : List Char} (h : ∀ c ∈ word, inWord c = true) :
    word.foldlM Reader.step ⟨.word front, state⟩ = some ⟨.word (front ++ word), state⟩ := by
  induction word generalizing front with
  | nil => simp
  | cons c word ih =>
    obtain ⟨hc, hword⟩ := List.forall_mem_cons.mp h
    have hstep : Reader.step ⟨.word front, state⟩ c = some ⟨.word (front ++ [c]), state⟩ :=
      if_pos hc
    rw [List.foldlM_cons, hstep, Option.bind_eq_bind, Option.bind_some, ih _ hword,
      List.append_assoc]
    rfl

/-- What ends a word comes as if the word had been a token of its own. -/
theorem read_endsWord (word : List Char) {rest : List Char} (h : EndsWord rest) :
    Reader.read ⟨.word word, state⟩ rest =
      (state.takeWord word).bind fun next => Reader.read ⟨.gap, next⟩ rest := by
  cases rest with
  | nil => rfl
  | cons c rest =>
    have hstep : Reader.step ⟨.word word, state⟩ c =
        (state.takeWord word).bind (·.takeChar c) := by
      show (if inWord c then _ else _) = _
      rw [h c rfl, if_neg Bool.false_ne_true]
    rw [read_cons, hstep, Option.bind_assoc]
    cases state.takeWord word with
    | none => rfl
    | some next => exact (read_cons rest ⟨.gap, next⟩ c).symm

theorem read_word {word : List Char} {value : Value} (hne : word ≠ [])
    (h : ∀ c ∈ word, inWord c = true) (hplain : plain? word = some value) {rest : List Char}
    (hrest : EndsWord rest) :
    Reader.read ⟨.gap, state⟩ (word ++ rest) =
      (state.step (.plain value)).bind fun next => Reader.read ⟨.gap, next⟩ rest := by
  obtain ⟨c, more, rfl⟩ := List.exists_cons_of_ne_nil hne
  obtain ⟨hc, hmore⟩ := List.forall_mem_cons.mp h
  have hstep : Reader.step ⟨.gap, state⟩ c = some ⟨.word [c], state⟩ := by
    show state.takeChar c = _
    simp only [inWord, Bool.and_eq_true, Bool.not_eq_true', decide_eq_true_eq,
      Option.isNone_iff_eq_none] at hc
    rw [State.takeChar, hc.1.1, if_neg Bool.false_ne_true, hc.2, if_neg hc.1.2]
  rw [List.cons_append, read_cons, hstep, Option.bind_some,
    read_append _ (foldlM_word state [c] hmore), List.singleton_append,
    read_endsWord state _ hrest, State.takeWord, hplain]
  rfl

end Reader

/-- Digits belong to words. -/
theorem inWord_of_mem_toString (n : Nat) : ∀ c ∈ (toString n).toList, inWord c = true := by
  intro c hc
  rw [Nat.toString_eq_ofList_toDigits, String.toList_ofList] at hc
  have hdigit : c.isDigit = true := Nat.isDigit_of_mem_toDigits (by decide) (by decide) hc
  have hne : ∀ d : Char, d.isDigit = false → c ≠ d := by
    rintro d hd rfl
    rw [hd] at hdigit
    cases hdigit
  have hmarks : marks.lookup c = none := by
    have hall : ∀ pair ∈ marks, pair.1.isDigit = false := by decide
    rw [List.lookup_eq_none_iff]
    intro pair hmem
    simpa using hne pair.1 (hall pair hmem)
  have hspace : isSpace c = false := by
    simp [isSpace, hne ' ' (by decide), hne '\t' (by decide), hne '\n' (by decide),
      hne '\r' (by decide)]
  simp [inWord, hspace, hmarks, hne '"' (by decide)]

theorem endsWord_cons {c : Char} (h : inWord c = false) (rest : List Char) :
    EndsWord (c :: rest) := by
  rintro d hd
  obtain rfl : c = d := Option.some.inj hd
  exact h

/-! ## Values as they are written -/

/-- A value may come next, with these containers open. -/
def State.Awaits (state : State) (stack : List Frame) : Prop :=
  ∀ token, token ≠ .closeArray → state.step token = begin stack token

theorem State.awaits_awaiting (stack : List Frame) : (State.awaiting stack).Awaits stack :=
  fun _ _ => rfl

theorem State.awaits_firstItem (stack : List Frame) :
    (State.firstItem stack).Awaits (.array [] :: stack) := by
  intro token h
  cases token with
  | closeArray => exact absurd rfl h
  | openArray | openObject | closeObject | comma | colon | string | plain => rfl

/-- A key may come next, behind these members. -/
def State.AwaitsKey (state : State) (before : List (String × Value)) (stack : List Frame) : Prop :=
  ∀ key, state.step (.string key) = some (.colon before key stack)

/-- The parts of a collection stand on lines of their own between the brackets. -/
theorem enclose_of_ne_nil (opening closing : Char) (level : Nat) {parts : List (List Char)}
    (h : parts ≠ []) (rest : List Char) :
    enclose opening closing level parts ++ rest =
      opening :: (newLine (level + 1) ++
        (Text.joinWith (',' :: newLine (level + 1)) parts ++
          (newLine level ++ closing :: rest))) := by
  rw [enclose, if_neg (by simpa using h)]
  simp

/-- The value is read as it is written on any level, wherever it may stand and whatever follows
    it. -/
def Reads (json : Json) : Prop :=
  ∀ (level : Nat) {state : State} {stack : List Frame}, state.Awaits stack →
    ∀ {rest : List Char}, EndsWord rest →
      Reader.read ⟨.gap, state⟩ (json.render level ++ rest) =
        Reader.read ⟨.gap, .complete json.value stack⟩ rest

theorem reads_null : Reads .null := by
  intro level state stack h rest hrest
  have hstep : state.step (.plain .null) = some (.complete .null stack) := h _ nofun
  have hword : ∀ c ∈ "null".toList, inWord c = true := List.all_eq_true.mp (by decide)
  rw [render, read_word state (by decide) hword (by rfl) hrest, hstep]
  rfl

theorem reads_number (n : Nat) : Reads (.number n) := by
  intro level state stack h rest hrest
  have hstep : state.step (.plain (.number n)) = some (.complete (.number n) stack) := h _ nofun
  rw [render, read_word state (by simp) (inWord_of_mem_toString n) (plain?_toString n) hrest, hstep]
  rfl

theorem reads_string (text : String) : Reads (.string text) := by
  intro level state stack h rest _
  have hstep : state.step (.string text) = some (.complete (.string text) stack) := h _ nofun
  rw [render, read_quote, hstep]
  rfl

/-- The items that are left of an array, up to its end. -/
theorem read_items {items : List Json} (h : ∀ item ∈ items, Reads item) (hne : items ≠ [])
    (level : Nat) {state : State} {before : List Value} {stack : List Frame}
    (hstate : state.Awaits (.array before :: stack)) (rest : List Char) :
    Reader.read ⟨.gap, state⟩
        (Text.joinWith (',' :: newLine (level + 1)) (renderItems (level + 1) items) ++
          (newLine level ++ ']' :: rest)) =
      Reader.read ⟨.gap, .complete (.array (before ++ itemValues items)) stack⟩ rest := by
  -- on the items that are left, with those before on the stack
  induction items generalizing state before with
  | nil => exact absurd rfl hne
  | cons item more ih =>
    obtain ⟨hitem, hmore⟩ := List.forall_mem_cons.mp h
    cases more with
    | nil =>
      have hend : EndsWord (newLine level ++ ']' :: rest) := endsWord_cons (by decide) _
      show Reader.read _ (item.render (level + 1) ++ _) = _
      rw [hitem (level + 1) hstate hend, read_newLine, read_mark _ _ (by rfl) (by rfl)]
      rfl
    | cons next more =>
      have hnext : EndsWord (',' :: (newLine (level + 1) ++
          (Text.joinWith (',' :: newLine (level + 1)) (renderItems (level + 1) (next :: more)) ++
            (newLine level ++ ']' :: rest)))) := endsWord_cons (by decide) _
      rw [renderItems, Text.joinWith_cons _ _ (by simp [renderItems]), List.append_assoc,
        List.append_assoc, List.cons_append, hitem (level + 1) hstate hnext,
        read_mark _ _ (by rfl) (by rfl)]
      show Reader.read ⟨.gap, .awaiting (.array (before ++ [item.value]) :: stack)⟩ _ = _
      rw [read_newLine, ih hmore (List.cons_ne_nil next more) (State.awaits_awaiting _),
        List.append_assoc]
      rfl

theorem reads_array {items : List Json} (h : ∀ item ∈ items, Reads item) :
    Reads (.array items) := by
  intro level state stack hstate rest _
  have hopen : state.step .openArray = some (.firstItem stack) := hstate _ nofun
  cases items with
  | nil =>
    show Reader.read _ ('[' :: ']' :: rest) = _
    rw [read_mark state _ (by rfl) (by rfl), hopen, Option.bind_some,
      read_mark _ _ (by rfl) (by rfl)]
    rfl
  | cons item more =>
    rw [render, enclose_of_ne_nil _ _ _ (by simp [renderItems]),
      read_mark state _ (by rfl) (by rfl), hopen, Option.bind_some, read_newLine,
      read_items h (List.cons_ne_nil item more) level (State.awaits_firstItem stack)]
    rfl

/-- A member of an object, with its key. -/
theorem read_member {key : String} {json : Json} (h : Reads json) (level : Nat) {state : State}
    {before : List (String × Value)} {stack : List Frame} (hstate : state.AwaitsKey before stack)
    {rest : List Char} (hrest : EndsWord rest) :
    Reader.read ⟨.gap, state⟩ (quote key.toList ++ [':', ' '] ++ json.render level ++ rest) =
      Reader.read ⟨.gap, .complete json.value (.object before key :: stack)⟩ rest := by
  rw [List.append_assoc, List.append_assoc, read_quote, hstate, Option.bind_some, List.cons_append,
    read_mark _ _ (by rfl) (by rfl)]
  show Reader.read ⟨.gap, .awaiting (.object before key :: stack)⟩ ([' '] ++ _) = _
  rw [read_spaces _ _ (List.forall_mem_singleton.mpr rfl), h level (State.awaits_awaiting _) hrest]

/-- The members that are left of an object, up to its end. -/
theorem read_members {members : List (String × Json)} (h : ∀ member ∈ members, Reads member.2)
    (hne : members ≠ []) (level : Nat) {state : State} {before : List (String × Value)}
    {stack : List Frame} (hstate : state.AwaitsKey before stack) (rest : List Char) :
    Reader.read ⟨.gap, state⟩
        (Text.joinWith (',' :: newLine (level + 1)) (renderMembers (level + 1) members) ++
          (newLine level ++ '\x7d' :: rest)) =
      Reader.read ⟨.gap, .complete (.object (before ++ memberValues members)) stack⟩ rest := by
  -- on the members that are left, with those before on the stack
  induction members generalizing state before with
  | nil => exact absurd rfl hne
  | cons member more ih =>
    obtain ⟨hmember, hmore⟩ := List.forall_mem_cons.mp h
    obtain ⟨key, json⟩ := member
    cases more with
    | nil =>
      have hend : EndsWord (newLine level ++ '\x7d' :: rest) := endsWord_cons (by decide) _
      show Reader.read _ (quote key.toList ++ [':', ' '] ++ json.render (level + 1) ++ _) = _
      rw [read_member hmember (level + 1) hstate hend, read_newLine,
        read_mark _ _ (by rfl) (by rfl)]
      rfl
    | cons next more =>
      have hnext : EndsWord (',' :: (newLine (level + 1) ++
          (Text.joinWith (',' :: newLine (level + 1)) (renderMembers (level + 1) (next :: more)) ++
            (newLine level ++ '\x7d' :: rest)))) := endsWord_cons (by decide) _
      rw [renderMembers, Text.joinWith_cons _ _ (by simp [renderMembers]), List.append_assoc,
        List.append_assoc _ (',' :: newLine (level + 1)), List.cons_append,
        read_member hmember (level + 1) hstate hnext, read_mark _ _ (by rfl) (by rfl)]
      show Reader.read ⟨.gap, .nextKey (before ++ [(key, json.value)]) stack⟩ _ = _
      rw [read_newLine, ih hmore (List.cons_ne_nil next more) (fun _ => rfl), List.append_assoc]
      rfl

theorem reads_object {members : List (String × Json)} (h : ∀ member ∈ members, Reads member.2) :
    Reads (.object members) := by
  intro level state stack hstate rest _
  have hopen : state.step .openObject = some (.firstKey stack) := hstate _ nofun
  cases members with
  | nil =>
    show Reader.read _ ('\x7b' :: '\x7d' :: rest) = _
    rw [read_mark state _ (by rfl) (by rfl), hopen, Option.bind_some,
      read_mark _ _ (by rfl) (by rfl)]
    rfl
  | cons member more =>
    have hfirst : (State.firstKey stack).AwaitsKey [] stack := fun _ => rfl
    rw [render, enclose_of_ne_nil _ _ _ (by simp [renderMembers]),
      read_mark state _ (by rfl) (by rfl), hopen, Option.bind_some, read_newLine,
      read_members h (List.cons_ne_nil member more) level hfirst]
    rfl

/-- Every value is read as it is written. -/
theorem reads : ∀ json : Json, Reads json
  | .null => reads_null
  | .number n => reads_number n
  | .string text => reads_string text
  | .array items => reads_array fun item _ => reads item
  | .object members => reads_object fun member _ => reads member.2
termination_by json => sizeOf json
decreasing_by
  · have := List.sizeOf_lt_of_mem ‹item ∈ items›
    simp
    omega
  · have := List.sizeOf_lt_of_mem ‹member ∈ members›
    obtain ⟨key, json⟩ := member
    simp at this ⊢
    omega

/-- What is decoded is the value that was written, also where white space follows it. -/
theorem decode_text (json : Json) {spaces : String}
    (h : ∀ c ∈ spaces.toList, isSpace c = true) :
    decode (json.text ++ spaces) = some json.value := by
  have hend : EndsWord spaces.toList := by
    intro c hc
    rw [inWord, h c (List.mem_of_head? hc)]
    rfl
  have hspaces := read_spaces (.complete json.value []) [] h
  rw [List.append_nil] at hspaces
  rw [decode, String.toList_append, text, String.toList_ofList,
    json.reads 0 (State.awaits_awaiting []) hend, hspaces]
  rfl

end SmaliSieve.Report.Json
