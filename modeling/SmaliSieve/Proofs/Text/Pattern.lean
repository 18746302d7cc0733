/-
  SmaliSieve.Proofs.Text.Pattern

  Patterns for text, matched by backtracking.

  `Pattern.ways` has every way in which a pattern matches at the start of a text, in the
  order in which they are tried: of a repetition, one round more comes before stopping. The
  match that counts begins as early as possible, and is the first of the ways there
  (`Pattern.find?`).

  What comes behind a pattern decides how much of the text it may take. `Pattern.seek` asks
  the ways in their order until one of them leads on, so that a sequence is one search in
  another (`seek_seq`). For a repeated character class, that is a walk to the end of the run
  and back (`seek_many_one`).
-/

import SmaliSieve.Text.Search

namespace SmaliSieve.Text

/-- A pattern for text. -/
inductive Pattern where
  /-- These characters. -/
  | piece (chars : List Char)
  /-- A character of a class. -/
  | one (accepts : Char → Bool)
  /-- A pattern, then another one. -/
  | seq (first second : Pattern)
  /-- A pattern any number of times. More is preferred. -/
  | many (body : Pattern)
  /-- A pattern whose text is kept. -/
  | keep (body : Pattern)

/-- How far a match has come: the text that is left, and what was kept of the text before. -/
structure Match where
  rest : List Char
  kept : Option (List Char)
  deriving DecidableEq, Repr

namespace Pattern

/-- A pattern once or more. -/
def oneOrMore (body : Pattern) : Pattern := .seq body (.many body)

/-- The ways to go on by `once` any number of times. A round that takes no text is none. -/
def repeated (once : Match → List Match) (found : Match) : List Match :=
  ((once found).flatMap fun next =>
    if next.rest.length < found.rest.length then repeated once next else []) ++ [found]
termination_by found.rest.length

/-- The ways to go on by a pattern, the preferred ones first. -/
def ways : Pattern → Match → List Match
  | piece chars, found => (chop? chars found.rest).toList.map fun rest => ⟨rest, found.kept⟩
  | one accepts, found =>
    match found.rest with
    | [] => []
    | c :: rest => if accepts c then [⟨rest, found.kept⟩] else []
  | seq first second, found => (first.ways found).flatMap second.ways
  | many body, found => repeated body.ways found
  | keep body, found =>
    (body.ways found).map fun next =>
      ⟨next.rest, some (found.rest.take (found.rest.length - next.rest.length))⟩

/-- The preferred match at the start of `text`. -/
def matchAt? (pattern : Pattern) (text : List Char) : Option Match :=
  (pattern.ways ⟨text, none⟩).head?

/-- The match in `text` that begins earliest, and of those the preferred one. -/
def find? (pattern : Pattern) : List Char → Option Match
  | [] => pattern.matchAt? []
  | c :: rest => (pattern.matchAt? (c :: rest)).or (pattern.find? rest)

/-! ## The first way that leads on -/

variable {β : Type}

/-- What the first way comes to that leads on. -/
def seek (pattern : Pattern) (next : Match → Option β) (found : Match) : Option β :=
  (pattern.ways found).findSome? next

theorem findSome?_flatMap {α γ : Type} (items : List α) (more : α → List γ) (next : γ → Option β) :
    (items.flatMap more).findSome? next =
      items.findSome? fun item => (more item).findSome? next := by
  induction items with
  | nil => rfl
  | cons item items ih =>
    rw [List.flatMap_cons, List.findSome?_append, ih, List.findSome?_cons]
    cases (more item).findSome? next with
    | none => rfl
    | some found => rfl

theorem seek_piece (chars : List Char) (next : Match → Option β) (found : Match) :
    (piece chars).seek next found =
      (chop? chars found.rest).bind fun rest => next ⟨rest, found.kept⟩ := by
  rw [seek, ways]
  cases chop? chars found.rest with
  | none => rfl
  | some rest => simp

theorem seek_seq (first second : Pattern) (next : Match → Option β) :
    (seq first second).seek next = first.seek (second.seek next) := by
  funext found
  rw [seek, ways, findSome?_flatMap]
  rfl

/-- One round more is tried first, and what comes behind it may go on in the same way. -/
theorem seek_many (body : Pattern) (next : Match → Option β) (found : Match) :
    (many body).seek next found =
      (body.seek (fun more =>
        if more.rest.length < found.rest.length then (many body).seek next more else none)
        found).or (next found) := by
  -- a round that takes nothing is not followed by another one
  have hround : ∀ more : Match,
      (if more.rest.length < found.rest.length then repeated body.ways more else []).findSome?
          next =
        if more.rest.length < found.rest.length then (many body).seek next more else none := by
    intro more
    split <;> rfl
  rw [seek, ways, repeated, List.findSome?_append, findSome?_flatMap, funext hround]
  cases hnext : next found <;> simp [seek, hnext]

theorem seek_keep (body : Pattern) (next : Match → Option β) (found : Match) :
    (keep body).seek next found = body.seek (fun more =>
      next ⟨more.rest, some (found.rest.take (found.rest.length - more.rest.length))⟩) found := by
  rw [seek, ways, List.findSome?_map]
  rfl

/-! ## Patterns that keep something -/

/-- Every match of the pattern has kept something. -/
def Keeps (pattern : Pattern) : Prop :=
  ∀ found, ∀ more ∈ pattern.ways found, more.kept.isSome

theorem keeps_keep (body : Pattern) : (keep body).Keeps := by
  intro found more hmem
  rw [ways] at hmem
  obtain ⟨next, -, rfl⟩ := List.mem_map.mp hmem
  rfl

theorem Keeps.seq {second : Pattern} (h : second.Keeps) (first : Pattern) :
    (seq first second).Keeps := by
  intro found more hmem
  rw [ways] at hmem
  obtain ⟨next, -, hmore⟩ := List.mem_flatMap.mp hmem
  exact h next more hmore

theorem Keeps.isSome_of_matchAt? {pattern : Pattern} (h : pattern.Keeps) {text : List Char}
    {found : Match} (hmatch : pattern.matchAt? text = some found) : found.kept.isSome :=
  h _ found (List.mem_of_mem_head? hmatch)

/-- What the preferred match keeps is what the first of the ways keeps. -/
theorem Keeps.matchAt?_bind {pattern : Pattern} (h : pattern.Keeps) (text : List Char) :
    (pattern.matchAt? text).bind Match.kept = pattern.seek Match.kept ⟨text, none⟩ := by
  cases hways : pattern.ways ⟨text, none⟩ with
  | nil => rw [matchAt?, seek, hways]; rfl
  | cons found more =>
    have hkept := h _ found (by rw [hways]; exact List.mem_cons_self)
    obtain ⟨kept, hkept⟩ := Option.isSome_iff_exists.mp hkept
    rw [matchAt?, seek, hways, List.head?_cons, Option.bind_some, List.findSome?_cons, hkept]

/-! ## Runs of a character class -/

/-- What `next` comes to at the last place in the run at the start of the text where it comes
    to something. The end of the run is one of the places. -/
def backtrack (accepts : Char → Bool) (next : List Char → Option β) : List Char → Option β
  | [] => next []
  | c :: rest =>
    if accepts c then (backtrack accepts next rest).or (next (c :: rest)) else next (c :: rest)

theorem seek_one_cons (accepts : Char → Bool) (next : Match → Option β) (c : Char)
    (rest : List Char) (kept : Option (List Char)) :
    (one accepts).seek next ⟨c :: rest, kept⟩ =
      if accepts c then next ⟨rest, kept⟩ else none := by
  show (if accepts c then [⟨rest, kept⟩] else [] : List Match).findSome? next = _
  split
  · simp
  · rfl

/-- A repeated class goes as far as it can, and back until the rest leads on. -/
theorem seek_many_one (accepts : Char → Bool) (next : Match → Option β) (text : List Char)
    (kept : Option (List Char)) :
    (many (one accepts)).seek next ⟨text, kept⟩ =
      backtrack accepts (fun rest => next ⟨rest, kept⟩) text := by
  induction text with
  | nil => rw [seek_many]; rfl
  | cons c rest ih =>
    rw [seek_many, seek_one_cons, backtrack]
    split
    · have hshorter : rest.length < (c :: rest).length := Nat.lt_succ_self _
      rw [if_pos hshorter, ih]
    · rfl

theorem seek_oneOrMore_cons {accepts : Char → Bool} {c : Char} (h : accepts c = true)
    (next : Match → Option β) (rest : List Char) (kept : Option (List Char)) :
    (oneOrMore (one accepts)).seek next ⟨c :: rest, kept⟩ =
      backtrack accepts (fun more => next ⟨more, kept⟩) rest := by
  rw [oneOrMore, seek_seq, seek_one_cons, if_pos h, seek_many_one]

theorem seek_oneOrMore_of_not {accepts : Char → Bool} {text : List Char}
    (h : ∀ c, text.head? = some c → accepts c = false) (next : Match → Option β)
    (kept : Option (List Char)) :
    (oneOrMore (one accepts)).seek next ⟨text, kept⟩ = none := by
  rw [oneOrMore, seek_seq]
  cases text with
  | nil => rfl
  | cons c rest => rw [seek_one_cons, h c rfl, if_neg Bool.false_ne_true]

theorem backtrack_congr {accepts : Char → Bool} {next next' : List Char → Option β}
    {text : List Char} (h : ∀ rest, rest.length ≤ text.length → next rest = next' rest) :
    backtrack accepts next text = backtrack accepts next' text := by
  induction text with
  | nil => exact h [] (Nat.le_refl 0)
  | cons c rest ih =>
    rw [backtrack, backtrack, h _ (Nat.le_refl _),
      ih fun more hmore => h more (Nat.le_succ_of_le hmore)]

/-- Where everything leads on, the whole run is taken. -/
theorem backtrack_some (accepts : Char → Bool) (result : List Char → β) (text : List Char) :
    backtrack accepts (fun rest => some (result rest)) text =
      some (result (text.dropWhile accepts)) := by
  induction text with
  | nil => rfl
  | cons c rest ih =>
    rw [backtrack, ih]
    by_cases hc : accepts c = true
    · rw [if_pos hc, List.dropWhile_cons_of_pos hc, Option.some_or]
    · rw [if_neg hc, List.dropWhile_cons_of_neg hc]

theorem take_length_sub_dropWhile (accepts : Char → Bool) (text : List Char) :
    text.take (text.length - (text.dropWhile accepts).length) = text.takeWhile accepts := by
  have hsplit : text.takeWhile accepts ++ text.dropWhile accepts = text :=
    List.takeWhile_append_dropWhile
  have hlength := congrArg List.length hsplit
  rw [List.length_append] at hlength
  rw [← hlength, Nat.add_sub_cancel]
  exact (List.prefix_iff_eq_take.mp (List.takeWhile_prefix accepts)).symm

/-- The run of a class that is kept is the longest one, if there is any. -/
theorem seek_keep_run (accepts : Char → Bool) (text : List Char) (kept : Option (List Char)) :
    (keep (oneOrMore (one accepts))).seek Match.kept ⟨text, kept⟩ =
      if (text.takeWhile accepts).isEmpty then none else some (text.takeWhile accepts) := by
  rw [seek_keep]
  cases text with
  | nil => rfl
  | cons c rest =>
    by_cases hc : accepts c = true
    · have hdrop : rest.dropWhile accepts = (c :: rest).dropWhile accepts :=
        (List.dropWhile_cons_of_pos hc).symm
      rw [seek_oneOrMore_cons hc, backtrack_some accepts
        (fun more => (c :: rest).take ((c :: rest).length - more.length)), hdrop,
        take_length_sub_dropWhile, List.takeWhile_cons_of_pos hc]
      rfl
    · rw [seek_oneOrMore_of_not (by simpa using hc), List.takeWhile_cons_of_neg hc]
      rfl

end Pattern

end SmaliSieve.Text
