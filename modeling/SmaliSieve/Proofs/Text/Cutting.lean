/-
  SmaliSieve.Proofs.Text.Cutting

  Cutting text up and putting it together again.

    * `segments mark` turns the mark into a boundary between lists (`segments_append`), and
      `joinWith` undoes it and is undone by it (`joinWith_segments`, `segments_joinWith`); the
      first piece is what stands before the first mark, and it does not matter which
      character the mark is (`segments_replaceChar`). One text has its pieces in front of those
      of another if it ends where the other one has a mark or its end (`segments_prefix_iff`).
      Pieces that are put in front of a text or behind it keep their boundaries
      (`segments_flatMap_append`, `segments_append_flatMap`).
    * what is looked for in front of a mark is not found elsewhere for more text behind it
      (`chop?_append_of_mem`, `takeWhile_append_of_mem`), a run of characters ends where it was
      written (`takeWhile_dropWhile_run`), and a mark of several characters is found where it was
      written (`cutAt?_append`).
    * a slice between two byte offsets is the text that stands there, whatever characters
      of more than one byte stand before or in it (`slice?_append`).
    * text that starts and ends with something other than white space is not changed by
      trimming (`trim_eq_self`), and what is trimmed already comes back when white space is put
      around it (`trim_append`). A carriage return at the end of a line makes no difference to
      what is left of it (`trim_dropReturn`).
-/

import Mathlib.Data.List.TakeWhile
import SmaliSieve.Text.Blank
import SmaliSieve.Text.Lines
import SmaliSieve.Text.Search
import SmaliSieve.Text.Slice

namespace SmaliSieve.Text

/-! ## Segments -/

theorem segments_cons_ne {mark c : Char} (h : c ≠ mark) (text : List Char) :
    ∃ piece more, segments mark text = piece :: more ∧
      segments mark (c :: text) = (c :: piece) :: more := by
  cases hseg : segments mark text with
  | nil => exact absurd hseg (segments_ne_nil mark text)
  | cons piece more =>
    refine ⟨piece, more, rfl, ?_⟩
    rw [segments] at hseg ⊢
    rw [List.foldr_cons, if_neg h, hseg]

/-- A mark between two texts is a boundary between their pieces. -/
theorem segments_append (mark : Char) (a b : List Char) :
    segments mark (a ++ mark :: b) = segments mark a ++ segments mark b := by
  induction a with
  | nil => rw [List.nil_append, segments_cons_mark, segments_nil, List.singleton_append]
  | cons c a ih =>
    by_cases h : c = mark
    · subst h
      rw [List.cons_append, segments_cons_mark, segments_cons_mark, ih, List.cons_append]
    · obtain ⟨piece, more, hseg, hcons⟩ := segments_cons_ne h a
      obtain ⟨piece', more', hseg', hcons'⟩ := segments_cons_ne h (a ++ mark :: b)
      rw [ih, hseg, List.cons_append] at hseg'
      obtain ⟨rfl, rfl⟩ := List.cons.inj hseg'
      rw [List.cons_append, hcons', hcons, List.cons_append]

/-- A text without the mark is one piece. -/
theorem segments_eq_singleton {mark : Char} {text : List Char} (h : mark ∉ text) :
    segments mark text = [text] := by
  induction text with
  | nil => rfl
  | cons c text ih =>
    rw [List.mem_cons, not_or] at h
    obtain ⟨piece, more, hseg, hcons⟩ := segments_cons_ne (Ne.symm h.1) text
    rw [ih h.2] at hseg
    obtain ⟨rfl, rfl⟩ := List.cons.inj hseg
    exact hcons

theorem not_mem_of_mem_segments {mark : Char} {text piece : List Char}
    (h : piece ∈ segments mark text) : mark ∉ piece := by
  induction text generalizing piece with
  | nil =>
    rw [segments_nil, List.mem_singleton] at h
    simp [h]
  | cons c text ih =>
    by_cases hmark : c = mark
    · subst hmark
      rw [segments_cons_mark] at h
      rcases List.mem_cons.mp h with rfl | h
      · simp
      · exact ih h
    · obtain ⟨first, more, hseg, hcons⟩ := segments_cons_ne hmark text
      rw [hseg] at ih
      rw [hcons] at h
      rcases List.mem_cons.mp h with rfl | h
      · have hfirst : mark ∉ first := ih List.mem_cons_self
        simp [hfirst, Ne.symm hmark]
      · exact ih (List.mem_cons_of_mem _ h)

/-- Whatever is in the text, but for the mark, is in one of the pieces. -/
theorem exists_mem_segments {mark other : Char} {text : List Char} (hmem : other ∈ text)
    (hne : other ≠ mark) : ∃ piece ∈ segments mark text, other ∈ piece := by
  induction text with
  | nil => cases hmem
  | cons c text ih =>
    by_cases hmark : c = mark
    · subst hmark
      rw [segments_cons_mark]
      obtain ⟨piece, hpiece, hin⟩ := ih ((List.mem_cons.mp hmem).resolve_left hne)
      exact ⟨piece, List.mem_cons_of_mem _ hpiece, hin⟩
    · obtain ⟨first, more, hseg, hcons⟩ := segments_cons_ne hmark text
      rw [hseg] at ih
      rw [hcons]
      rcases List.mem_cons.mp hmem with rfl | hmem
      · exact ⟨other :: first, List.mem_cons_self, List.mem_cons_self⟩
      · obtain ⟨piece, hpiece, hin⟩ := ih hmem
        rcases List.mem_cons.mp hpiece with rfl | hpiece
        · exact ⟨c :: piece, List.mem_cons_self, List.mem_cons_of_mem _ hin⟩
        · exact ⟨piece, List.mem_cons_of_mem _ hpiece, hin⟩

/-- Another mark that was not in the text before cuts it in the same way. -/
theorem segments_replaceChar {old new : Char} {text : List Char} (h : new ∉ text) :
    segments new (replaceChar old new text) = segments old text := by
  induction text with
  | nil => rfl
  | cons c text ih =>
    rw [List.mem_cons, not_or] at h
    show segments new ((if c = old then new else c) :: replaceChar old new text) = _
    by_cases hold : c = old
    · rw [if_pos hold, segments_cons_mark, ih h.2, hold, segments_cons_mark]
    · obtain ⟨piece, more, hseg, hcons⟩ := segments_cons_ne hold text
      obtain ⟨piece', more', hseg', hcons'⟩ :=
        segments_cons_ne (Ne.symm h.1) (replaceChar old new text)
      rw [ih h.2, hseg] at hseg'
      obtain ⟨rfl, rfl⟩ := List.cons.inj hseg'
      rw [if_neg hold, hcons', hcons]

theorem joinWith_cons (mark piece : List Char) {more : List (List Char)} (h : more ≠ []) :
    joinWith mark (piece :: more) = piece ++ mark ++ joinWith mark more := by
  cases more with
  | nil => exact absurd rfl h
  | cons next more => rfl

/-- Pieces in front of others each have a mark behind them. -/
theorem joinWith_append (mark : List Char) (before : List (List Char)) {after : List (List Char)}
    (h : after ≠ []) :
    joinWith mark (before ++ after) = before.flatMap (· ++ mark) ++ joinWith mark after := by
  induction before with
  | nil => rfl
  | cons piece before ih =>
    rw [List.cons_append, joinWith_cons _ _ (by simp [h]), ih, List.flatMap_cons,
      List.append_assoc, List.append_assoc, List.append_assoc]

theorem joinWith_concat (mark : List Char) (before : List (List Char)) (last : List Char) :
    joinWith mark (before ++ [last]) = before.flatMap (· ++ mark) ++ last :=
  joinWith_append mark before (List.cons_ne_nil last [])

/-- The pieces with marks between them are the pieces with a mark in front of all but the
    first. -/
theorem joinWith_eq_flatMap (mark : Char) (first : List Char) (more : List (List Char)) :
    joinWith [mark] (first :: more) = first ++ more.flatMap (mark :: ·) := by
  induction more generalizing first with
  | nil => exact (List.append_nil first).symm
  | cons next more ih =>
    rw [joinWith_cons _ _ (List.cons_ne_nil next more), ih, List.flatMap_cons]
    simp

/-- The pieces of a text, put together, are the text. -/
theorem joinWith_segments (mark : Char) (text : List Char) :
    joinWith [mark] (segments mark text) = text := by
  induction text with
  | nil => rfl
  | cons c text ih =>
    by_cases h : c = mark
    · subst h
      rw [segments_cons_mark, joinWith_cons _ _ (segments_ne_nil c text), ih]
      rfl
    · obtain ⟨piece, more, hseg, hcons⟩ := segments_cons_ne h text
      rw [hseg] at ih
      rw [hcons]
      cases more with
      | nil => exact congrArg (c :: ·) ih
      | cons next more => exact congrArg (c :: ·) ih

/-- Pieces without the mark, put together, fall into the same pieces again. -/
theorem segments_joinWith {mark : Char} {pieces : List (List Char)} (hne : pieces ≠ [])
    (h : ∀ piece ∈ pieces, mark ∉ piece) : segments mark (joinWith [mark] pieces) = pieces := by
  induction pieces with
  | nil => exact absurd rfl hne
  | cons piece more ih =>
    have hpiece : segments mark piece = [piece] :=
      segments_eq_singleton (h piece List.mem_cons_self)
    cases more with
    | nil => exact hpiece
    | cons next more =>
      have hmore : segments mark (joinWith [mark] (next :: more)) = next :: more :=
        ih (List.cons_ne_nil next more) fun other hmem => h other (List.mem_cons_of_mem _ hmem)
      rw [joinWith_cons _ _ (List.cons_ne_nil next more), List.append_assoc,
        List.singleton_append, segments_append, hpiece, hmore, List.singleton_append]

/-- The pieces of a text start those of another one exactly if the other is the same text, or
    goes on behind it with the mark. -/
theorem segments_prefix_iff {mark : Char} {a b : List Char} :
    segments mark a <+: segments mark b ↔ b = a ∨ a ++ [mark] <+: b := by
  constructor
  · rintro ⟨more, hmore⟩
    obtain ⟨first, rest, hfirst⟩ := List.exists_cons_of_ne_nil (segments_ne_nil mark a)
    have ha : a = first ++ rest.flatMap (mark :: ·) := by
      rw [← joinWith_eq_flatMap, ← hfirst, joinWith_segments]
    -- put together again, `b` is `a` with the pieces that are left over behind it
    have hb : b = a ++ more.flatMap (mark :: ·) := by
      rw [← joinWith_segments mark b, ← hmore, hfirst, List.cons_append, joinWith_eq_flatMap,
        List.flatMap_append, ← List.append_assoc, ← ha]
    cases more with
    | nil => exact .inl (by rw [hb, List.flatMap_nil, List.append_nil])
    | cons piece more =>
      refine .inr ⟨piece ++ more.flatMap (mark :: ·), ?_⟩
      rw [hb, List.flatMap_cons, List.append_assoc]
      rfl
  · rintro (rfl | ⟨rest, rfl⟩)
    · exact List.prefix_rfl
    · rw [List.append_assoc, List.singleton_append, segments_append]
      exact List.prefix_append _ _

/-- Pieces with a mark behind each of them come in front of the pieces of the rest. -/
theorem segments_flatMap_append {mark : Char} {before : List (List Char)}
    (h : ∀ piece ∈ before, mark ∉ piece) (text : List Char) :
    segments mark (before.flatMap (· ++ [mark]) ++ text) = before ++ segments mark text := by
  induction before with
  | nil => rfl
  | cons piece before ih =>
    obtain ⟨hpiece, hbefore⟩ := List.forall_mem_cons.mp h
    rw [List.flatMap_cons, List.append_assoc, List.append_assoc, List.singleton_append,
      segments_append, segments_eq_singleton hpiece, ih hbefore]
    rfl

/-- A mark in front of each piece that follows keeps them apart. -/
theorem segments_append_flatMap {mark : Char} (text : List Char) {after : List (List Char)}
    (h : ∀ piece ∈ after, mark ∉ piece) :
    segments mark (text ++ after.flatMap (mark :: ·)) = segments mark text ++ after := by
  induction after generalizing text with
  | nil => rw [List.flatMap_nil, List.append_nil, List.append_nil]
  | cons piece after ih =>
    obtain ⟨hpiece, hafter⟩ := List.forall_mem_cons.mp h
    rw [List.flatMap_cons, List.cons_append, segments_append, ih piece hafter,
      segments_eq_singleton hpiece, List.singleton_append]

/-- The text with a mark at its end is each of the pieces with a mark at its end. -/
theorem flatMap_append_mark (mark : List Char) {pieces : List (List Char)} (h : pieces ≠ []) :
    pieces.flatMap (· ++ mark) = joinWith mark pieces ++ mark := by
  obtain ⟨before, last, rfl⟩ : ∃ before last, pieces = before ++ [last] :=
    ⟨_, _, (List.dropLast_concat_getLast h).symm⟩
  rw [joinWith_concat, List.flatMap_append, List.flatMap_singleton, List.append_assoc]

/-- Nothing is in a piece that is not in the text. -/
theorem mem_of_mem_segments {mark c : Char} {text piece : List Char}
    (hmem : piece ∈ segments mark text) (hc : c ∈ piece) : c ∈ text := by
  have htext : text ++ [mark] = (segments mark text).flatMap (· ++ [mark]) := by
    rw [flatMap_append_mark _ (segments_ne_nil mark text), joinWith_segments]
  have hin : c ∈ text ++ [mark] := by
    rw [htext]
    exact List.mem_flatMap.mpr ⟨piece, hmem, List.mem_append_left _ hc⟩
  rcases List.mem_append.mp hin with hin | hin
  · exact hin
  · obtain rfl := List.mem_singleton.mp hin
    exact absurd hc (not_mem_of_mem_segments hmem)

/-- The first piece is what stands in front of the first mark. -/
theorem segments_eq_takeWhile_cons (mark : Char) (text : List Char) :
    ∃ more, segments mark text = text.takeWhile (· ≠ mark) :: more := by
  induction text with
  | nil => exact ⟨[], rfl⟩
  | cons c text ih =>
    by_cases h : c = mark
    · subst h
      refine ⟨segments c text, ?_⟩
      rw [segments_cons_mark, List.takeWhile_cons_of_neg (by simp)]
    · obtain ⟨more, hmore⟩ := ih
      obtain ⟨piece, more', hseg, hcons⟩ := segments_cons_ne h text
      obtain ⟨rfl, rfl⟩ := List.cons.inj (hseg.symm.trans hmore)
      refine ⟨more', ?_⟩
      rw [hcons, List.takeWhile_cons_of_pos (by simp [h])]

/-- The first line of a text with a line feed is what stands in front of that, less a
    carriage return. -/
theorem head?_lines (a b : List Char) :
    (lines (a ++ '\n' :: b)).head? =
      some (dropReturn ((a ++ '\n' :: b).takeWhile (· ≠ '\n'))) := by
  obtain ⟨more, hmore⟩ := segments_eq_takeWhile_cons '\n' (a ++ '\n' :: b)
  have hlong : more ≠ [] := by
    rintro rfl
    have hlen := congrArg List.length ((segments_append '\n' a b).symm.trans hmore)
    have ha := List.length_pos_iff.mpr (segments_ne_nil '\n' a)
    have hb := List.length_pos_iff.mpr (segments_ne_nil '\n' b)
    rw [List.length_append, List.length_singleton] at hlen
    omega
  rw [lines, hmore, List.dropLast_cons_of_ne_nil hlong]
  rfl

/-! ## Text in front of a mark -/

/-- A piece without the mark is not found any better where more text stands behind the mark. -/
theorem chop?_append_of_mem {piece text : List Char} {mark : Char} (hmem : mark ∈ text)
    (hpiece : mark ∉ piece) (more : List Char) :
    chop? piece (text ++ more) = (chop? piece text).map (· ++ more) := by
  induction piece generalizing text with
  | nil => rfl
  | cons p piece ih =>
    rw [List.mem_cons, not_or] at hpiece
    cases text with
    | nil => cases hmem
    | cons c text =>
      rw [List.cons_append, chop?, chop?]
      by_cases h : p = c
      · subst h
        rw [if_pos rfl, if_pos rfl, ih ((List.mem_cons.mp hmem).resolve_left hpiece.1) hpiece.2]
      · rw [if_neg h, if_neg h]
        rfl

/-- What stands in front of the mark does not depend on what stands behind it. -/
theorem takeWhile_append_of_mem {text : List Char} {mark : Char} (h : mark ∈ text)
    (more : List Char) :
    (text ++ more).takeWhile (· ≠ mark) = text.takeWhile (· ≠ mark) := by
  induction text with
  | nil => cases h
  | cons c text ih =>
    by_cases hmark : c = mark
    · subst hmark
      rw [List.cons_append, List.takeWhile_cons_of_neg (by simp),
        List.takeWhile_cons_of_neg (by simp)]
    · have htext : mark ∈ text := (List.mem_cons.mp h).resolve_left (Ne.symm hmark)
      rw [List.cons_append, List.takeWhile_cons_of_pos (by simp [hmark]),
        List.takeWhile_cons_of_pos (by simp [hmark]), ih htext]

/-- A run of characters ends at the first one that does not belong to it. -/
theorem takeWhile_dropWhile_run {p : Char → Bool} {run : List Char} (hrun : ∀ c ∈ run, p c = true)
    {c : Char} (hc : p c = false) (rest : List Char) :
    (run ++ c :: rest).takeWhile p = run ∧ (run ++ c :: rest).dropWhile p = c :: rest := by
  have hstop : ¬ p c = true := by simp [hc]
  constructor
  · rw [List.takeWhile_append_of_pos hrun, List.takeWhile_cons_of_neg hstop, List.append_nil]
  · rw [List.dropWhile_append_of_pos hrun, List.dropWhile_cons_of_neg hstop]

/-- A piece that ends with a character of which it has no other is found where it was written
    and not earlier, if it is not in the text in front. -/
theorem cutAt?_append {front text : List Char} {last : Char} (hlast : last ∉ front)
    (h : ¬ front ++ [last] <:+: text) (rest : List Char) :
    cutAt? (front ++ [last]) (text ++ (front ++ [last] ++ rest)) = some (text, rest) := by
  induction text with
  | nil =>
    have hchop : chop? (front ++ [last]) (front ++ [last] ++ rest) = some rest :=
      chop?_eq_some_iff.mpr rfl
    obtain ⟨c, more, hpiece⟩ := List.exists_cons_of_ne_nil (List.append_ne_nil_of_right_ne_nil
      front (List.cons_ne_nil last []))
    rw [hpiece, List.cons_append] at hchop ⊢
    rw [List.nil_append, cutAt?, hchop]
  | cons c text ih =>
    have htext : ¬ front ++ [last] <:+: text := fun hin => h (hin.trans (List.infix_cons_iff.mpr
      (.inr List.infix_rfl)))
    have hnone : chop? (front ++ [last]) (c :: (text ++ (front ++ [last] ++ rest))) = none := by
      rw [Option.eq_none_iff_forall_ne_some]
      intro found hfound
      have hsplit : (c :: text) ++ (front ++ [last] ++ rest) = front ++ [last] ++ found :=
        chop?_eq_some_iff.mp hfound
      rcases List.append_eq_append_iff.mp hsplit with
        ⟨beyond, hpiece, hbeyond⟩ | ⟨beyond, hpiece, -⟩
      · -- the piece would end behind the text, where its last character stands too early
        by_cases hnil : beyond = []
        · rw [hnil, List.append_nil] at hpiece
          exact h (hpiece ▸ List.infix_rfl)
        · obtain ⟨less, other, rfl⟩ : ∃ less other, beyond = less ++ [other] :=
            ⟨_, _, (List.dropLast_concat_getLast hnil).symm⟩
          rw [← List.append_assoc] at hpiece
          obtain ⟨hfront, hother⟩ := List.append_inj' hpiece rfl
          obtain rfl : last = other := by simpa using hother
          have hshort : (less ++ [last]).length ≤ front.length := by
            simp only [hfront, List.length_append, List.length_cons, List.length_nil]
            omega
          have hprefix : less ++ [last] <+: front ++ ([last] ++ rest) :=
            ⟨found, by rw [← hbeyond, List.append_assoc]⟩
          have hmem := List.prefix_of_prefix_length_le hprefix (List.prefix_append _ _) hshort
          exact hlast (hmem.mem (by simp))
      · exact h (hpiece ▸ (List.prefix_append _ _).isInfix)
    rw [List.cons_append, cutAt?, hnone, ih htext]
    rfl

/-! ## Slices -/

/-- The bytes of a character are there to be dropped or taken, and what is left of the
    count are the bytes behind it. -/
theorem byteLength_cons_eq_succ (c : Char) (rest : List Char) :
    ∃ count, byteLength (c :: rest) = count + 1 ∧ c.utf8Size ≤ count + 1 ∧
      count + 1 - c.utf8Size = byteLength rest := by
  have hpos := c.utf8Size_pos
  refine ⟨c.utf8Size + byteLength rest - 1, ?_, ?_, ?_⟩
  · rw [byteLength]
    omega
  · omega
  · omega

theorem dropBytes?_append (front back : List Char) :
    dropBytes? (byteLength front) (front ++ back) = some back := by
  induction front with
  | nil => exact dropBytes?.eq_1 back
  | cons c front ih =>
    obtain ⟨count, hcount, hfits, hrest⟩ := byteLength_cons_eq_succ c front
    rw [hcount, List.cons_append, dropBytes?, if_pos hfits, hrest, ih]

theorem takeBytes?_append (front back : List Char) :
    takeBytes? (byteLength front) (front ++ back) = some front := by
  induction front with
  | nil => exact takeBytes?.eq_1 back
  | cons c front ih =>
    obtain ⟨count, hcount, hfits, hrest⟩ := byteLength_cons_eq_succ c front
    rw [hcount, List.cons_append, takeBytes?, if_pos hfits, hrest, ih]
    rfl

/-- The slice between the ends of `front` and of `middle` exists, and it is `middle`. -/
theorem slice?_append (front middle back : List Char) :
    slice? (front ++ (middle ++ back))
        ⟨byteLength front, byteLength front + byteLength middle⟩ = some middle := by
  rw [slice?, if_pos (Nat.le_add_right _ _), dropBytes?_append, Option.bind_some,
    Nat.add_sub_cancel_left, takeBytes?_append]

theorem dropBytes?_eq_some {count : Nat} {text rest : List Char}
    (h : dropBytes? count text = some rest) :
    ∃ front, text = front ++ rest ∧ count = byteLength front := by
  fun_induction dropBytes? count text with
  | case1 text => exact ⟨[], Option.some.inj h, rfl⟩
  | case2 count => cases h
  | case3 count c text hfits ih =>
    obtain ⟨front, rfl, hcount⟩ := ih h
    refine ⟨c :: front, rfl, ?_⟩
    rw [byteLength, ← hcount]
    omega
  | case4 count c text hfits => cases h

theorem takeBytes?_eq_some {count : Nat} {text taken : List Char}
    (h : takeBytes? count text = some taken) :
    ∃ rest, text = taken ++ rest ∧ count = byteLength taken := by
  fun_induction takeBytes? count text generalizing taken with
  | case1 text =>
    obtain rfl := Option.some.inj h
    exact ⟨text, rfl, rfl⟩
  | case2 count => cases h
  | case3 count c text hfits ih =>
    obtain ⟨more, hmore, rfl⟩ := Option.map_eq_some_iff.mp h
    obtain ⟨rest, rfl, hcount⟩ := ih hmore
    refine ⟨rest, rfl, ?_⟩
    rw [byteLength, ← hcount]
    omega
  | case4 count c text hfits => cases h

/-- A slice that exists stands between whole characters. -/
theorem slice?_eq_some {text middle : List Char} {span : Span}
    (h : slice? text span = some middle) :
    ∃ front back, text = front ++ (middle ++ back) ∧ span.start = byteLength front ∧
      span.stop = byteLength front + byteLength middle := by
  rw [slice?] at h
  split at h
  · next hle =>
    obtain ⟨rest, hdrop, htake⟩ := Option.bind_eq_some_iff.mp h
    obtain ⟨front, rfl, hstart⟩ := dropBytes?_eq_some hdrop
    obtain ⟨back, rfl, hlength⟩ := takeBytes?_eq_some htake
    exact ⟨front, back, rfl, hstart, by omega⟩
  · cases h

/-- The bytes that are counted are those of a string. -/
theorem utf8ByteSize_ofList (text : List Char) :
    (String.ofList text).utf8ByteSize = byteLength text := by
  induction text with
  | nil => rfl
  | cons c rest ih =>
    rw [String.ofList_cons, String.utf8ByteSize_append, String.utf8ByteSize_singleton, ih,
      byteLength]

/-! ## Trimming -/

theorem dropEndWhile_append_singleton_of_neg {p : Char → Bool} {c : Char} (h : p c = false)
    (text : List Char) : dropEndWhile p (text ++ [c]) = text ++ [c] := by
  rw [dropEndWhile, List.reverse_append, List.reverse_singleton, List.singleton_append,
    List.dropWhile_cons_of_neg (by simp [h]), List.reverse_cons, List.reverse_reverse]

theorem dropEndWhile_append_singleton_of_pos {p : Char → Bool} {c : Char} (h : p c = true)
    (text : List Char) : dropEndWhile p (text ++ [c]) = dropEndWhile p text := by
  rw [dropEndWhile, List.reverse_append, List.reverse_singleton, List.singleton_append,
    List.dropWhile_cons_of_pos h, dropEndWhile]

/-- Whether the end goes on in front of a tail depends on whether anything of that stays. -/
theorem dropEndWhile_append (p : Char → Bool) (text tail : List Char) :
    dropEndWhile p (text ++ tail) =
      if dropEndWhile p tail = [] then dropEndWhile p text
      else text ++ dropEndWhile p tail := by
  simp only [dropEndWhile, List.reverse_append, List.dropWhile_append, List.isEmpty_iff,
    List.reverse_eq_nil_iff]
  split
  · rfl
  · rw [List.reverse_append, List.reverse_reverse]

theorem dropEndWhile_eq_nil_iff {p : Char → Bool} {text : List Char} :
    dropEndWhile p text = [] ↔ ∀ c ∈ text, p c = true := by
  rw [dropEndWhile, List.reverse_eq_nil_iff, List.dropWhile_eq_nil_iff]
  simp only [List.mem_reverse]

/-- What is dropped has stood at the end. -/
theorem exists_dropEndWhile_append (p : Char → Bool) (text : List Char) :
    ∃ tail, text = dropEndWhile p text ++ tail ∧ ∀ c ∈ tail, p c = true := by
  refine ⟨(text.reverse.takeWhile p).reverse, ?_, fun c hc => ?_⟩
  · rw [dropEndWhile, ← List.reverse_append, List.takeWhile_append_dropWhile,
      List.reverse_reverse]
  · exact List.mem_takeWhile_imp (List.mem_reverse.mp hc)

/-- What is left ends with something that is not to be dropped. -/
theorem getLast?_dropEndWhile {p : Char → Bool} {text : List Char} {c : Char}
    (h : (dropEndWhile p text).getLast? = some c) : p c = false := by
  rw [dropEndWhile, List.getLast?_reverse] at h
  have hhead := List.head?_dropWhile_not p text.reverse
  rw [h] at hhead
  simpa using hhead

theorem not_mem_of_blank {text : List Char} (h : ∀ c ∈ text, isBlank c = true) {c : Char}
    (hc : isBlank c = false) : c ∉ text := by
  intro hmem
  rw [h c hmem] at hc
  cases hc

/-- Text with something other than white space at both ends is trimmed already. -/
theorem trim_eq_self {text : List Char} {first last : Char}
    (hfirst : text.head? = some first) (hlast : text.getLast? = some last)
    (hfirst' : isBlank first = false) (hlast' : isBlank last = false) : trim text = text := by
  have hdrop : text.dropWhile isBlank = text := by
    cases text with
    | nil => rfl
    | cons c rest =>
      obtain rfl : c = first := by simpa using hfirst
      rw [List.dropWhile_cons_of_neg (by simp [hfirst'])]
  obtain ⟨front, rfl⟩ := List.getLast?_eq_some_iff.mp hlast
  rw [trim, hdrop, dropEndWhile_append_singleton_of_neg hlast']

/-- Trimming leaves nothing exactly of white space. -/
theorem trim_eq_nil_iff {text : List Char} : trim text = [] ↔ ∀ c ∈ text, isBlank c = true := by
  rw [trim, dropEndWhile_eq_nil_iff]
  constructor
  · intro h
    rw [← List.dropWhile_eq_nil_iff]
    by_contra hne
    -- what is left would start with a character that is not blank
    have hhead := List.head_dropWhile_not isBlank hne
    rw [h _ (List.head_mem hne)] at hhead
    cases hhead
  · intro h c hmem
    exact h c ((List.dropWhile_suffix _).mem hmem)

/-- What is left by trimming has stood in the text. -/
theorem mem_of_mem_trim {text : List Char} {c : Char} (h : c ∈ trim text) : c ∈ text := by
  obtain ⟨tail, htail, -⟩ := exists_dropEndWhile_append isBlank (text.dropWhile isBlank)
  have hdrop : c ∈ text.dropWhile isBlank := by
    rw [htail]
    exact List.mem_append_left _ h
  exact (List.dropWhile_suffix isBlank).mem hdrop

/-- What is left by trimming starts with something other than white space. -/
theorem head?_trim {text : List Char} {c : Char} (h : (trim text).head? = some c) :
    isBlank c = false := by
  obtain ⟨tail, htail, -⟩ := exists_dropEndWhile_append isBlank (text.dropWhile isBlank)
  -- the end is dropped, so the first character is the one in front of which dropping stopped
  have hhead : (text.dropWhile isBlank).head? = some c := by
    have hfront : (dropEndWhile isBlank (text.dropWhile isBlank)).head? = some c := h
    rw [htail, List.head?_append, hfront]
    rfl
  have hstop := List.head?_dropWhile_not isBlank text
  rw [hhead] at hstop
  simpa using hstop

/-- A text with something other than white space at both ends is what is left when white space
    has been put around it. -/
theorem trim_append {lead text trail : List Char} (hlead : ∀ c ∈ lead, isBlank c = true)
    (htrail : ∀ c ∈ trail, isBlank c = true) (htext : trim text = text) :
    trim (lead ++ text ++ trail) = text := by
  -- trimming takes nothing away at the start, and so nothing at the end either
  obtain ⟨tail, htail, -⟩ := exists_dropEndWhile_append isBlank (text.dropWhile isBlank)
  have hkept : dropEndWhile isBlank (text.dropWhile isBlank) = text := htext
  have hdrop : text.dropWhile isBlank = text := by
    refine (List.dropWhile_suffix isBlank).eq_of_length_le ?_
    rw [hkept] at htail
    rw [htail, List.length_append]
    exact Nat.le_add_right _ _
  have hend : dropEndWhile isBlank text = text := by rwa [hdrop] at hkept
  rw [trim, List.append_assoc, List.dropWhile_append_of_pos hlead, List.dropWhile_append, hdrop]
  split
  · next hnil =>
    rw [List.isEmpty_iff.mp hnil, List.dropWhile_eq_nil_iff.mpr htrail, dropEndWhile_nil]
  · rw [dropEndWhile_append, if_pos (dropEndWhile_eq_nil_iff.mpr htrail), hend]

/-- A carriage return at the end of a line is white space like any other. -/
theorem trim_dropReturn (line : List Char) : trim (dropReturn line) = trim line := by
  rw [dropReturn]
  split
  · next hlast =>
    obtain ⟨front, rfl⟩ := List.getLast?_eq_some_iff.mp hlast
    have hblank : isBlank '\r' = true := by decide
    rw [List.dropLast_concat]
    by_cases hall : ∀ c ∈ front, isBlank c = true
    · have hall' : ∀ c ∈ front ++ ['\r'], isBlank c = true := by
        intro c hc
        rcases List.mem_append.mp hc with hc | hc
        · exact hall c hc
        · rw [List.mem_singleton.mp hc, hblank]
      rw [trim, trim, List.dropWhile_eq_nil_iff.mpr hall, List.dropWhile_eq_nil_iff.mpr hall']
    · -- the first other character is in `front`, so the carriage return is at the end of
      -- what is left of both
      have hne : front.dropWhile isBlank ≠ [] := fun h => hall (List.dropWhile_eq_nil_iff.mp h)
      have hdrop : (front ++ ['\r']).dropWhile isBlank = front.dropWhile isBlank ++ ['\r'] := by
        rw [List.dropWhile_append, if_neg (by simpa using hne)]
      rw [trim, trim, hdrop, dropEndWhile_append_singleton_of_pos hblank]
  · rfl

end SmaliSieve.Text
