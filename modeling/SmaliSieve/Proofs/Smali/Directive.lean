/-
  SmaliSieve.Proofs.Smali.Directive

  The class directive as a pattern.

  `classDirective` leaves open how the text between the keyword and the name is split into
  words and white space, and which `L` opens the name. Tried in the order of backtracking,
  all splits of a run come to its last `L` that can open a name (`seek_modifiers`), which is
  what `lastNameIn` looks for. So the name that is declared is the one that the first match of
  the pattern keeps, and it can be told from the first occurrence of the keyword whose run
  holds an opening (`declaredName?_directive`).
-/

import Mathlib.Data.List.TakeWhile
import SmaliSieve.Proofs.Text.Pattern
import SmaliSieve.Smali.Directive

namespace SmaliSieve.Smali

open Text (Match Pattern chop? isBlank isWord)
open Text.Pattern (backtrack)

/-! ## The pattern -/

/-- White space. -/
def blanks : Pattern := .oneOrMore (.one isBlank)

/-- White space, then word characters and white space, any number of times. -/
def modifiers : Pattern := .many (.seq blanks (.oneOrMore (.one isRunChar)))

/-- White space, the letter that opens a name, and the name. -/
def opening : Pattern :=
  .seq blanks (.seq (.piece ['L']) (.keep (.oneOrMore (.one (· ≠ ';')))))

/-- The class directive. -/
def classDirective : Pattern := .seq (.piece classKeyword) (.seq modifiers opening)

/-! ## Which opening wins -/

/-- The name that the letter at the start of `text` opens. -/
def nameFrom (text : List Char) : Option (List Char) :=
  (chop? ['L'] text).bind fun rest =>
    if (upToSemicolon rest).isEmpty then none else some (upToSemicolon rest)

theorem nameFrom_cons (c : Char) (rest : List Char) :
    nameFrom (c :: rest) =
      if c = 'L' then
        if (upToSemicolon rest).isEmpty then none else some (upToSemicolon rest)
      else none := by
  by_cases h : c = 'L'
  · rw [nameFrom, chop?, if_pos h.symm, if_pos h]
    rfl
  · rw [nameFrom, chop?, if_neg (Ne.symm h), if_neg h]
    rfl

theorem isRunChar_of_isBlank {c : Char} (h : isBlank c = true) : isRunChar c = true := by
  rw [isRunChar, h, Bool.or_true]

theorem ne_of_isBlank {c : Char} (h : isBlank c = true) : c ≠ 'L' := by
  rintro rfl
  revert h
  decide

theorem isRunChar_L : isRunChar 'L' = true := by decide +kernel

/-- Later openings win over the one at the start. -/
theorem lastNameIn_cons {c : Char} (h : isRunChar c = true) (blankBefore : Bool)
    (rest : List Char) :
    lastNameIn blankBefore (c :: rest) =
      (lastNameIn (isBlank c) rest).or (if blankBefore then nameFrom (c :: rest) else none) := by
  rw [lastNameIn, if_pos h, nameFrom_cons]
  cases lastNameIn (isBlank c) rest with
  | some name => rfl
  | none =>
    rw [Option.none_or]
    by_cases hletter : c = 'L' <;> cases blankBefore <;>
      cases (upToSemicolon rest).isEmpty <;> simp [hletter]

theorem lastNameIn_cons_of_not {c : Char} (h : isRunChar c = false) (blankBefore : Bool)
    (rest : List Char) : lastNameIn blankBefore (c :: rest) = none := by
  rw [lastNameIn, h, if_neg Bool.false_ne_true]

/-- White space in front of the text adds an opening at its start, behind all others. -/
theorem lastNameIn_true (text : List Char) :
    lastNameIn true text = (lastNameIn false text).or (nameFrom text) := by
  cases text with
  | nil => rfl
  | cons c rest =>
    cases h : isRunChar c with
    | true =>
      rw [lastNameIn_cons h, lastNameIn_cons h, if_pos rfl, if_neg Bool.false_ne_true,
        Option.or_none]
    | false =>
      have hletter : c ≠ 'L' := by
        rintro rfl
        rw [isRunChar_L] at h
        cases h
      rw [lastNameIn_cons_of_not h, lastNameIn_cons_of_not h, nameFrom_cons, if_neg hletter]
      rfl

/-- The last place in a run from which a directive can go on has the last opening. -/
theorem backtrack_nameAfterKeyword (text : List Char) :
    backtrack isRunChar nameAfterKeyword text = lastNameIn false text := by
  induction text with
  | nil => rfl
  | cons c rest ih =>
    have hname : nameAfterKeyword (c :: rest) =
        if isBlank c then lastNameIn false (c :: rest) else none := rfl
    rw [backtrack]
    cases h : isRunChar c with
    | true =>
      rw [if_pos rfl, ih, hname, lastNameIn_cons h, if_neg Bool.false_ne_true, Option.or_none]
      cases hblank : isBlank c with
      | true =>
        rw [if_pos rfl, lastNameIn_true]
        cases lastNameIn false rest <;> rfl
      | false => rw [if_neg Bool.false_ne_true, Option.or_none]
    | false =>
      have hblank : isBlank c = false := by
        rw [isRunChar, Bool.or_eq_false_iff] at h
        exact h.2
      rw [if_neg Bool.false_ne_true, hname, hblank, lastNameIn_cons_of_not h]
      rfl

/-- What a round of words comes to that begins at the start of `text`: one character of the
    run is taken at least. -/
def nameBehindWord (text : List Char) : Option (List Char) :=
  match text with
  | [] => none
  | c :: rest => if isRunChar c then lastNameIn false rest else none

/-- A round of words and then an opening, or an opening at once: wherever the white space in
    front of them is taken to end, it is the last opening that is found. -/
theorem backtrack_blanks (text : List Char) :
    (backtrack isBlank nameBehindWord text).or (backtrack isBlank nameFrom text) =
      lastNameIn true text := by
  induction text with
  | nil => rfl
  | cons c rest ih =>
    have hword : nameBehindWord (c :: rest) =
        if isRunChar c then lastNameIn false rest else none := rfl
    rw [backtrack, backtrack, hword]
    cases hblank : isBlank c with
    | true =>
      have hrun : isRunChar c = true := isRunChar_of_isBlank hblank
      rw [if_pos rfl, if_pos rfl, hrun, if_pos rfl, nameFrom_cons, if_neg (ne_of_isBlank hblank),
        Option.or_none, lastNameIn_cons hrun, hblank, if_pos rfl, nameFrom_cons,
        if_neg (ne_of_isBlank hblank), Option.or_none, ← ih]
      cases hword : backtrack isBlank nameBehindWord rest with
      | some name => rfl
      | none =>
        -- a name behind the next character is found from here, too
        rw [hword, Option.none_or, lastNameIn_true] at ih
        rw [Option.none_or, Option.none_or, ih]
        cases lastNameIn false rest <;> rfl
    | false =>
      rw [if_neg Bool.false_ne_true, if_neg Bool.false_ne_true]
      cases hrun : isRunChar c with
      | true => rw [if_pos rfl, lastNameIn_cons hrun, hblank, if_pos rfl]
      | false =>
        rw [if_neg Bool.false_ne_true, Option.none_or, lastNameIn_true,
          lastNameIn_cons_of_not hrun, Option.none_or]

/-! ## The search -/

theorem nameAfterKeyword_of_blank {c : Char} (h : isBlank c = true) (rest : List Char) :
    nameAfterKeyword (c :: rest) = lastNameIn true rest := by
  rw [← h]
  show (if isBlank c then lastNameIn false (c :: rest) else none) = _
  rw [if_pos h, lastNameIn_cons (isRunChar_of_isBlank h), if_neg Bool.false_ne_true,
    Option.or_none]

theorem nameAfterKeyword_of_not {text : List Char}
    (h : ∀ c, text.head? = some c → isBlank c = false) : nameAfterKeyword text = none := by
  cases text with
  | nil => rfl
  | cons c rest => exact if_neg (by simp [h c rfl])

theorem seek_name (text : List Char) :
    (Pattern.seq (.piece ['L']) (.keep (.oneOrMore (.one (· ≠ ';'))))).seek Match.kept
        ⟨text, none⟩ = nameFrom text := by
  rw [Pattern.seek_seq, Pattern.seek_piece, nameFrom]
  simp only [Pattern.seek_keep_run]
  rfl

/-- An opening is looked for behind all the white space that the text starts with, and if
    there is none before the end of it. -/
theorem seek_opening {c : Char} (h : isBlank c = true) (rest : List Char) :
    opening.seek Match.kept ⟨c :: rest, none⟩ = backtrack isBlank nameFrom rest := by
  rw [opening, Pattern.seek_seq, blanks, Pattern.seek_oneOrMore_cons h]
  simp only [seek_name]

theorem seek_opening_of_not {text : List Char}
    (h : ∀ c, text.head? = some c → isBlank c = false) :
    opening.seek Match.kept ⟨text, none⟩ = none := by
  rw [opening, Pattern.seek_seq, blanks, Pattern.seek_oneOrMore_of_not h]

/-- Of all ways to split a run into white space and words, the first one that comes to an
    opening comes to the last opening of the run. -/
theorem seek_modifiers (text : List Char) :
    modifiers.seek (opening.seek Match.kept) ⟨text, none⟩ = nameAfterKeyword text := by
  induction hlength : text.length using Nat.strongRecOn generalizing text with
  | ind length ih =>
    subst hlength
    rw [modifiers, Pattern.seek_many, Pattern.seek_seq, ← modifiers]
    by_cases hblank : ∀ c, text.head? = some c → isBlank c = false
    · rw [blanks, Pattern.seek_oneOrMore_of_not hblank, seek_opening_of_not hblank,
        nameAfterKeyword_of_not hblank]
      rfl
    · obtain ⟨c, rest, rfl, hc⟩ : ∃ c rest, text = c :: rest ∧ isBlank c = true := by
        cases text with
        | nil => exact absurd (by simp) hblank
        | cons c rest => exact ⟨c, rest, rfl, by simpa using hblank⟩
      rw [blanks, Pattern.seek_oneOrMore_cons hc, seek_opening hc, nameAfterKeyword_of_blank hc,
        ← backtrack_blanks]
      congr 1
      apply Pattern.backtrack_congr
      intro more hmore
      -- a round of words leaves less text, from which the same search goes on
      cases more with
      | nil => exact Pattern.seek_oneOrMore_of_not (by simp) _ _
      | cons d more =>
        have hword : nameBehindWord (d :: more) =
            if isRunChar d then lastNameIn false more else none := rfl
        rw [hword]
        cases hrun : isRunChar d with
        | false =>
          rw [if_neg Bool.false_ne_true]
          exact Pattern.seek_oneOrMore_of_not (by simpa using hrun) _ _
        | true =>
          rw [if_pos rfl, Pattern.seek_oneOrMore_cons hrun, ← backtrack_nameAfterKeyword]
          apply Pattern.backtrack_congr
          intro last hlast
          have hshorter : last.length < (c :: rest).length := by
            simp only [List.length_cons] at hmore ⊢
            omega
          rw [if_pos hshorter, ih last.length hshorter last rfl]

/-! ## The first match -/

/-- The name declared by a directive at the start of `text`. -/
def nameAt (text : List Char) : Option (List Char) :=
  (chop? classKeyword text).bind nameAfterKeyword

theorem declaredNameIn_cons (c : Char) (rest : List Char) :
    declaredNameIn (c :: rest) = (nameAt (c :: rest)).or (declaredNameIn rest) := by
  rw [declaredNameIn, nameAt]
  split
  · next name hname => rw [hname, Option.some_or]
  · next hname => rw [hname, Option.none_or]

theorem keeps_classDirective : classDirective.Keeps :=
  ((((Pattern.keeps_keep _).seq _).seq _).seq _).seq _

/-- The match at the start of a text keeps the name that is declared there. -/
theorem matchAt?_classDirective (text : List Char) :
    (classDirective.matchAt? text).bind Match.kept = nameAt text := by
  rw [keeps_classDirective.matchAt?_bind, classDirective, Pattern.seek_seq, Pattern.seek_seq,
    Pattern.seek_piece, nameAt]
  simp only [seek_modifiers]

/-- The name declared in a text is what its first match keeps. -/
theorem find?_classDirective (text : List Char) :
    (classDirective.find? text).bind Match.kept = declaredNameIn text := by
  induction text with
  | nil => exact matchAt?_classDirective []
  | cons c rest ih =>
    rw [Pattern.find?, declaredNameIn_cons, ← matchAt?_classDirective, ← ih]
    cases hmatch : classDirective.matchAt? (c :: rest) with
    | none => rfl
    | some found =>
      obtain ⟨name, hname⟩ :=
        Option.isSome_iff_exists.mp (keeps_classDirective.isSome_of_matchAt? hmatch)
      rw [Option.some_or, Option.bind_some, hname, Option.some_or]

/-! ## Occurrences of the keyword -/

/-- Behind `front`, the text has the keyword, with `run` directly behind it: all the word
    characters and white space up to `behind`, beginning with white space. -/
structure Occurrence (text front run behind : List Char) : Prop where
  split : text = front ++ (classKeyword ++ (run ++ behind))
  chars : ∀ c ∈ run, isWord c || isBlank c
  maximal : ∀ c, behind.head? = some c → (isWord c || isBlank c) = false
  blank : ∃ c, run.head? = some c ∧ isBlank c = true

/-- In a run that is followed by `behind`, an `L` stands behind `before`, directly behind white
    space and in front of something other than a semicolon. -/
structure Opening (run behind before after : List Char) : Prop where
  split : run = before ++ 'L' :: after
  blank : ∃ c, before.getLast? = some c ∧ isBlank c = true
  named : ∃ c, (after ++ behind).head? = some c ∧ c ≠ ';'

theorem upToSemicolon_isEmpty_iff {text : List Char} :
    (upToSemicolon text).isEmpty = false ↔ ∃ c, text.head? = some c ∧ c ≠ ';' := by
  cases text with
  | nil => simp [upToSemicolon]
  | cons c rest => by_cases h : c = ';' <;> simp [upToSemicolon, h]

theorem nameFrom_eq_some_iff {text name : List Char} :
    nameFrom text = some name ↔ ∃ rest, text = 'L' :: rest ∧
      (∃ c, rest.head? = some c ∧ c ≠ ';') ∧ name = upToSemicolon rest := by
  simp only [nameFrom, Option.bind_eq_some_iff, Text.chop?_eq_some_iff,
    ← upToSemicolon_isEmpty_iff]
  constructor
  · rintro ⟨rest, rfl, hname⟩
    split at hname
    · cases hname
    · next hfull => exact ⟨rest, rfl, Bool.eq_false_iff.mpr hfull, (Option.some.inj hname).symm⟩
  · rintro ⟨rest, rfl, hfull, rfl⟩
    exact ⟨rest, rfl, by rw [hfull, if_neg Bool.false_ne_true]⟩

/-- An opening in a longer run is one behind its first character, or comes right after it. -/
theorem Opening.uncons {c : Char} {run behind before after : List Char}
    (h : Opening (c :: run) behind before after) :
    (before = [c] ∧ isBlank c = true ∧ run = 'L' :: after) ∨
      ∃ before', before = c :: before' ∧ Opening run behind before' after := by
  obtain ⟨hsplit, ⟨last, hlast, hblank⟩, hnamed⟩ := h
  match before, hsplit, hlast with
  | [first], hsplit, hlast =>
    obtain ⟨rfl, rfl⟩ := List.cons.inj hsplit
    obtain rfl : c = last := by simpa using hlast
    exact .inl ⟨rfl, hblank, rfl⟩
  | first :: next :: before', hsplit, hlast =>
    obtain ⟨rfl, rfl⟩ := List.cons.inj hsplit
    exact .inr ⟨next :: before', rfl, rfl, ⟨last, by simpa using hlast, hblank⟩, hnamed⟩

theorem Opening.cons {run behind before after : List Char}
    (h : Opening run behind before after) (c : Char) :
    Opening (c :: run) behind (c :: before) after := by
  obtain ⟨hsplit, ⟨last, hlast, hblank⟩, hnamed⟩ := h
  refine ⟨by rw [hsplit]; rfl, ⟨last, ?_, hblank⟩, hnamed⟩
  rw [List.getLast?_cons, hlast]
  rfl

variable {run behind : List Char}

theorem lastNameIn_false_cons {c : Char} (h : isRunChar c = true) (rest : List Char) :
    lastNameIn false (c :: rest) =
      (lastNameIn false rest).or (if isBlank c then nameFrom rest else none) := by
  rw [lastNameIn_cons h, if_neg Bool.false_ne_true, Option.or_none]
  cases isBlank c with
  | true => rw [if_pos rfl, lastNameIn_true]
  | false => rw [if_neg Bool.false_ne_true, Option.or_none]

/-- Where there is an opening, a name is found. -/
theorem Opening.isSome (hchars : ∀ c ∈ run, isRunChar c = true) {before after : List Char}
    (h : Opening run behind before after) : (lastNameIn false (run ++ behind)).isSome := by
  induction run generalizing before with
  | nil =>
    have hsplit := h.split
    simp at hsplit
  | cons c run ih =>
    rw [List.cons_append, lastNameIn_false_cons (hchars c List.mem_cons_self), Option.isSome_or]
    rcases h.uncons with ⟨-, hblank, rfl⟩ | ⟨before', -, hopening⟩
    · have hname : nameFrom ('L' :: after ++ behind) = some (upToSemicolon (after ++ behind)) :=
        nameFrom_eq_some_iff.mpr ⟨after ++ behind, rfl, h.named, rfl⟩
      rw [if_pos hblank, hname, Option.isSome_some, Bool.or_true]
    · rw [ih (fun d hd => hchars d (List.mem_cons_of_mem _ hd)) hopening, Bool.true_or]

/-- The name that is found is behind the last opening. -/
theorem exists_lastOpening (hchars : ∀ c ∈ run, isRunChar c = true)
    (hmaximal : ∀ c, behind.head? = some c → isRunChar c = false) {name : List Char}
    (h : lastNameIn false (run ++ behind) = some name) :
    ∃ before after, Opening run behind before after ∧
      (∀ before' after', Opening run behind before' after' → before'.length ≤ before.length) ∧
      name = upToSemicolon (after ++ behind) := by
  induction run with
  | nil =>
    cases behind with
    | nil => cases h
    | cons c behind =>
      rw [List.nil_append, lastNameIn_cons_of_not (hmaximal c rfl)] at h
      cases h
  | cons c run ih =>
    have hchars' : ∀ d ∈ run, isRunChar d = true :=
      fun d hd => hchars d (List.mem_cons_of_mem _ hd)
    rw [List.cons_append, lastNameIn_false_cons (hchars c List.mem_cons_self)] at h
    cases hlater : lastNameIn false (run ++ behind) with
    | some later =>
      rw [hlater, Option.some_or] at h
      obtain rfl := Option.some.inj h
      obtain ⟨before, after, hopening, hlast, hname⟩ := ih hchars' hlater
      refine ⟨c :: before, after, hopening.cons c, fun before' after' hother => ?_, hname⟩
      rcases hother.uncons with ⟨rfl, -, -⟩ | ⟨before'', rfl, hother'⟩
      · simp
      · simpa using hlast before'' after' hother'
    | none =>
      rw [hlater, Option.none_or] at h
      split at h
      · next hblank =>
        obtain ⟨rest, hrest, hnamed, rfl⟩ := nameFrom_eq_some_iff.mp h
        -- the letter belongs to the run, which ends in front of any other character
        obtain ⟨after, rfl, rfl⟩ : ∃ after, run = 'L' :: after ∧ rest = after ++ behind := by
          cases run with
          | nil =>
            rw [List.nil_append] at hrest
            have hletter := hmaximal 'L' (by rw [hrest]; rfl)
            rw [isRunChar_L] at hletter
            cases hletter
          | cons d run =>
            obtain ⟨rfl, rfl⟩ := List.cons.inj hrest
            exact ⟨run, rfl, rfl⟩
        refine ⟨[c], after, ⟨rfl, ⟨c, rfl, hblank⟩, hnamed⟩, fun before' after' hother => ?_, rfl⟩
        rcases hother.uncons with ⟨rfl, -, -⟩ | ⟨before'', rfl, hother'⟩
        · exact Nat.le_refl _
        · have hsome := hother'.isSome hchars'
          rw [hlater] at hsome
          cases hsome
      · cases h

/-! ## The name that is declared -/

/-- At an occurrence of the keyword, its run is asked for a name. -/
theorem Occurrence.nameAt_eq {text front run behind : List Char}
    (h : Occurrence text front run behind) :
    nameAt (classKeyword ++ (run ++ behind)) = lastNameIn false (run ++ behind) := by
  obtain ⟨c, hhead, hblank⟩ := h.blank
  rw [nameAt, Text.chop?_eq_some_iff.mpr rfl, Option.bind_some, nameAfterKeyword, if_pos]
  rw [List.head?_append, hhead, Option.some_or, Option.map_some, Option.getD_some, hblank]

/-- Where a name is declared, there is an occurrence of the keyword: the run behind it is what
    follows in word characters and white space. -/
theorem exists_occurrence {text name : List Char} (h : nameAt text = some name) :
    ∃ run behind, Occurrence text [] run behind := by
  rw [nameAt] at h
  obtain ⟨rest, hchop, hname⟩ := Option.bind_eq_some_iff.mp h
  obtain ⟨c, more, rfl, hblank⟩ : ∃ c more, rest = c :: more ∧ isBlank c = true := by
    rw [nameAfterKeyword] at hname
    split at hname
    · next hhead =>
      cases rest with
      | nil => cases hhead
      | cons c more => exact ⟨c, more, rfl, hhead⟩
    · cases hname
  refine ⟨(c :: more).takeWhile isRunChar, (c :: more).dropWhile isRunChar, ?_, ?_,
    ?_, c, ?_, hblank⟩
  · rw [List.takeWhile_append_dropWhile, List.nil_append]
    exact Text.chop?_eq_some_iff.mp hchop
  · intro d hmem
    have hrun : isRunChar d = true := List.mem_takeWhile_imp hmem
    exact hrun
  · intro d hhead
    have hnot := List.head?_dropWhile_not isRunChar (c :: more)
    rw [hhead] at hnot
    exact hnot
  · rw [List.takeWhile_cons_of_pos (isRunChar_of_isBlank hblank)]
    rfl

/-- A name at the start of a text is behind the last opening of the run there. -/
theorem nameAt_eq_some_iff {text name : List Char} :
    nameAt text = some name ↔ ∃ run behind before after, Occurrence text [] run behind ∧
      Opening run behind before after ∧
      (∀ before' after', Opening run behind before' after' → before'.length ≤ before.length) ∧
      name = upToSemicolon (after ++ behind) := by
  constructor
  · intro h
    obtain ⟨run, behind, hoccurs⟩ := exists_occurrence h
    rw [hoccurs.split, List.nil_append, hoccurs.nameAt_eq] at h
    obtain ⟨before, after, hopening, hlast, hname⟩ :=
      exists_lastOpening hoccurs.chars hoccurs.maximal h
    exact ⟨run, behind, before, after, hoccurs, hopening, hlast, hname⟩
  · rintro ⟨run, behind, before, after, hoccurs, hopening, hlast, rfl⟩
    rw [hoccurs.split, List.nil_append, hoccurs.nameAt_eq]
    obtain ⟨name, hname⟩ := Option.isSome_iff_exists.mp (hopening.isSome hoccurs.chars)
    obtain ⟨before', after', hopening', hlast', rfl⟩ :=
      exists_lastOpening hoccurs.chars hoccurs.maximal hname
    -- two openings that are the last one are the same
    have hlength : before'.length = before.length :=
      Nat.le_antisymm (hlast _ _ hopening') (hlast' _ _ hopening)
    obtain ⟨-, hafter⟩ :=
      List.append_inj (hopening'.split.symm.trans hopening.split) hlength
    rw [hname, (List.cons.inj hafter).2]

theorem Occurrence.isSome_nameAt {text front run behind before after : List Char}
    (h : Occurrence text front run behind) (hopening : Opening run behind before after) :
    (nameAt (classKeyword ++ (run ++ behind))).isSome := by
  rw [h.nameAt_eq]
  exact hopening.isSome h.chars

theorem declaredNameIn_eq_some_iff {text name : List Char} :
    declaredNameIn text = some name ↔ ∃ front rest, text = front ++ rest ∧
      nameAt rest = some name ∧
      ∀ front' rest', text = front' ++ rest' → (nameAt rest').isSome →
        front.length ≤ front'.length := by
  induction text with
  | nil =>
    constructor
    · intro h
      cases h
    · rintro ⟨front, rest, hsplit, hname, -⟩
      obtain ⟨rfl, rfl⟩ := List.append_eq_nil_iff.mp hsplit.symm
      cases hname
  | cons c text ih =>
    rw [declaredNameIn_cons]
    cases hhere : nameAt (c :: text) with
    | some found =>
      rw [Option.some_or]
      constructor
      · rintro ⟨⟩
        exact ⟨[], c :: text, rfl, hhere, fun front' rest' _ _ => Nat.zero_le _⟩
      · rintro ⟨front, rest, hsplit, hname, hfirst⟩
        have hnil : front.length ≤ 0 := hfirst [] (c :: text) rfl (by rw [hhere]; rfl)
        obtain rfl := List.length_eq_zero_iff.mp (Nat.le_zero.mp hnil)
        rw [List.nil_append] at hsplit
        rw [← hhere, hsplit, hname]
    | none =>
      rw [Option.none_or, ih]
      constructor
      · rintro ⟨front, rest, rfl, hname, hfirst⟩
        refine ⟨c :: front, rest, rfl, hname, fun front' rest' hsplit hsome => ?_⟩
        cases front' with
        | nil =>
          rw [List.nil_append] at hsplit
          rw [← hsplit, hhere] at hsome
          cases hsome
        | cons d front' =>
          exact Nat.succ_le_succ (hfirst front' rest' (List.cons.inj hsplit).2 hsome)
      · rintro ⟨front, rest, hsplit, hname, hfirst⟩
        cases front with
        | nil =>
          rw [List.nil_append] at hsplit
          rw [← hsplit, hhere] at hname
          cases hname
        | cons d front =>
          obtain ⟨rfl, rfl⟩ := List.cons.inj hsplit
          refine ⟨front, rest, rfl, hname, fun front' rest' hsplit' hsome => ?_⟩
          have hlater := hfirst (c :: front') rest' (by rw [hsplit']; rfl) hsome
          exact Nat.le_of_succ_le_succ hlater

theorem isSome_declaredNameIn {front rest : List Char} (h : (nameAt rest).isSome) :
    (declaredNameIn (front ++ rest)).isSome := by
  induction front with
  | nil =>
    cases rest with
    | nil => exact h
    | cons c rest => rw [List.nil_append, declaredNameIn_cons, Option.isSome_or, h, Bool.true_or]
  | cons c front ih =>
    rw [List.cons_append, declaredNameIn_cons, Option.isSome_or, ih, Bool.or_true]

/-- A name is declared by the first occurrence of the keyword that has an opening in its run,
    behind the last of its openings. -/
theorem declaredNameIn_eq_some_iff_occurrence {text name : List Char} :
    declaredNameIn text = some name ↔ ∃ front run behind before after,
      Occurrence text front run behind ∧ Opening run behind before after ∧
      (∀ front' run' behind' before' after', Occurrence text front' run' behind' →
        Opening run' behind' before' after' → front.length ≤ front'.length) ∧
      (∀ before' after', Opening run behind before' after' → before'.length ≤ before.length) ∧
      name = upToSemicolon (after ++ behind) := by
  rw [declaredNameIn_eq_some_iff]
  constructor
  · rintro ⟨front, rest, rfl, hname, hfirst⟩
    obtain ⟨run, behind, before, after, hoccurs, hopening, hlast, rfl⟩ :=
      nameAt_eq_some_iff.mp hname
    refine ⟨front, run, behind, before, after, ?_, hopening, ?_, hlast, rfl⟩
    · exact ⟨congrArg (front ++ ·) hoccurs.split, hoccurs.chars, hoccurs.maximal, hoccurs.blank⟩
    · intro front' run' behind' before' after' hoccurs' hopening'
      exact hfirst front' _ hoccurs'.split (hoccurs'.isSome_nameAt hopening')
  · rintro ⟨front, run, behind, before, after, hoccurs, hopening, hfirst, hlast, rfl⟩
    refine ⟨front, _, hoccurs.split, ?_, fun front' rest' hsplit hsome => ?_⟩
    · exact nameAt_eq_some_iff.mpr ⟨run, behind, before, after,
        ⟨rfl, hoccurs.chars, hoccurs.maximal, hoccurs.blank⟩, hopening, hlast, rfl⟩
    · obtain ⟨name, hname⟩ := Option.isSome_iff_exists.mp hsome
      obtain ⟨run', behind', before', after', hoccurs', hopening', -, -⟩ :=
        nameAt_eq_some_iff.mp hname
      refine hfirst front' run' behind' before' after' ?_ hopening'
      exact ⟨hsplit.trans (congrArg (front' ++ ·) hoccurs'.split), hoccurs'.chars,
        hoccurs'.maximal, hoccurs'.blank⟩

theorem declaredNameIn_isSome_iff {text : List Char} :
    (declaredNameIn text).isSome ↔ ∃ front run behind before after,
      Occurrence text front run behind ∧ Opening run behind before after := by
  constructor
  · intro h
    obtain ⟨name, hname⟩ := Option.isSome_iff_exists.mp h
    obtain ⟨front, run, behind, before, after, hoccurs, hopening, -⟩ :=
      declaredNameIn_eq_some_iff_occurrence.mp hname
    exact ⟨front, run, behind, before, after, hoccurs, hopening⟩
  · rintro ⟨front, run, behind, before, after, hoccurs, hopening⟩
    rw [hoccurs.split]
    exact isSome_declaredNameIn (hoccurs.isSome_nameAt hopening)

/-- The name that a text declares is the one that the first match of the directive keeps. There
    is a name exactly if the keyword occurs with an opening in the run behind it, and the name
    is what stands behind the last opening of the first such run, up to the next semicolon. -/
theorem declaredName?_directive (content : String) :
    declaredName? content =
        ((classDirective.find? content.toList).bind Match.kept).map String.ofList ∧
      ((declaredName? content).isSome ↔ ∃ front run behind before after,
        Occurrence content.toList front run behind ∧ Opening run behind before after) ∧
      ∀ name, declaredName? content = some name ↔ ∃ front run behind before after,
        Occurrence content.toList front run behind ∧ Opening run behind before after ∧
        (∀ front' run' behind' before' after', Occurrence content.toList front' run' behind' →
          Opening run' behind' before' after' → front.length ≤ front'.length) ∧
        (∀ before' after', Opening run behind before' after' → before'.length ≤ before.length) ∧
        name = String.ofList (upToSemicolon (after ++ behind)) := by
  refine ⟨?_, ?_, fun name => ?_⟩
  · rw [find?_classDirective, declaredName?]
  · rw [declaredName?, Option.isSome_map]
    exact declaredNameIn_isSome_iff
  · rw [declaredName?, Option.map_eq_some_iff]
    constructor
    · rintro ⟨chars, hchars, rfl⟩
      obtain ⟨front, run, behind, before, after, hoccurs, hopening, hfirst, hlast, rfl⟩ :=
        declaredNameIn_eq_some_iff_occurrence.mp hchars
      exact ⟨front, run, behind, before, after, hoccurs, hopening, hfirst, hlast, rfl⟩
    · rintro ⟨front, run, behind, before, after, hoccurs, hopening, hfirst, hlast, rfl⟩
      exact ⟨_, declaredNameIn_eq_some_iff_occurrence.mpr
        ⟨front, run, behind, before, after, hoccurs, hopening, hfirst, hlast, rfl⟩, rfl⟩

end SmaliSieve.Smali
