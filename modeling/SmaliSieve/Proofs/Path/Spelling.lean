/-
  SmaliSieve.Proofs.Path.Spelling

  Paths that are put together from pieces, some of which may be empty.

  An empty piece adds a separator or nothing, and where it added one, the next piece needs none.
  So the pieces that are not empty stand in the text with one separator between them, whatever
  empty ones there were, and only at the end it can be seen that there were some
  (`spelledBy_joinAll`). What such a path ends with is the last of its names
  (`SpelledBy.exists_named`).
-/

import Mathlib.Data.List.Induction
import SmaliSieve.Proofs.Path.FileName

namespace SmaliSieve.Path

/-- The path is written with the names and nothing else, but for a separator that may stand
    behind the last one. -/
def SpelledBy (path : Path) (names : List (List Char)) : Prop :=
  path.chars = Text.joinWith ['/'] names ∨ path.chars = names.flatMap (· ++ ['/'])

theorem SpelledBy.chars_eq_nil {path : Path} (h : path.SpelledBy []) : path.chars = [] :=
  h.elim id id

/-- What is added stands behind one separator, whether there was one before or not. -/
theorem SpelledBy.join_eq {path : Path} {names : List (List Char)} (h : path.SpelledBy names)
    (hnames : ∀ name ∈ names, IsName name) {tail : List Char} (htail : tail.head? ≠ some '/') :
    path.join tail = ⟨names.flatMap (· ++ ['/']) ++ tail⟩ := by
  rcases List.eq_nil_or_concat' names with rfl | ⟨before, name, rfl⟩
  · exact join_of_nil htail h.chars_eq_nil
  · have hflat : (before ++ [name]).flatMap (· ++ ['/']) =
        before.flatMap (· ++ ['/']) ++ name ++ ['/'] := by simp
    rcases h with hchars | hchars
    · obtain ⟨front, last, hlast⟩ :=
        (List.eq_nil_or_concat' name).resolve_left (hnames name (by simp)).ne_nil
      have hslash : last ≠ '/' := by
        rintro rfl
        exact (hnames name (by simp)).not_mem (by simp [hlast])
      have hends : path.chars = before.flatMap (· ++ ['/']) ++ front ++ [last] := by
        rw [hchars, Text.joinWith_concat, hlast, List.append_assoc]
      rw [join_of_ne htail hends hslash, hchars, Text.joinWith_concat, hflat]
      simp
    · have hends : path.chars = (before.flatMap (· ++ ['/']) ++ name) ++ ['/'] := by
        rw [hchars, hflat]
      rw [join_of_slash htail hends, hflat]
      simp

/-- Of pieces that are added, the empty ones leave a separator at most. -/
theorem spelledBy_joinAll {pieces : List (List Char)}
    (h : ∀ piece ∈ pieces, piece ≠ [] → IsName piece) :
    ((Path.mk []).joinAll pieces).SpelledBy (pieces.filter (· ≠ [])) := by
  induction pieces using List.reverseRecOn with
  | nil => exact .inl rfl
  | append_singleton pieces piece ih =>
    obtain ⟨hpieces, hpiece⟩ := List.forall_mem_append.mp h
    have hspelled := ih hpieces
    have hnames : ∀ name ∈ pieces.filter (· ≠ []), IsName name := by
      intro name hmem
      obtain ⟨hmem, hne⟩ := List.mem_filter.mp hmem
      exact hpieces name hmem (by simpa using hne)
    rw [joinAll_concat, List.filter_append]
    by_cases hempty : piece = []
    · subst hempty
      rw [hspelled.join_eq hnames (by simp)]
      exact .inr (by simp)
    · have hname : IsName piece := hpiece piece List.mem_cons_self hempty
      rw [hspelled.join_eq hnames hname.head?_ne]
      refine .inl ?_
      rw [List.filter_cons_of_pos (by simpa using hempty), List.filter_nil, Text.joinWith_concat]

/-- A path that is written with names ends with the last of them. -/
theorem SpelledBy.exists_named {path : Path} {before : List (List Char)} {name : List Char}
    (h : path.SpelledBy (before ++ [name])) (hbefore : ∀ other ∈ before, IsName other)
    (hname : IsName name) : ∃ idle, path.Named before name idle := by
  have hslash : ∀ other ∈ before, '/' ∉ other := fun other hmem => (hbefore other hmem).not_mem
  rcases h with hchars | hchars
  · refine ⟨[], ?_, hname, fun _ hmem => absurd hmem List.not_mem_nil⟩
    have hpieces := pieces_of_chars_concat hslash hname.not_mem
    rwa [← Text.joinWith_concat, ← hchars] at hpieces
  · refine ⟨[[]], ?_, hname, fun piece hmem => by rw [List.mem_singleton.mp hmem]; rfl⟩
    have hpieces : pieces ⟨before.flatMap (· ++ ['/']) ++ (name ++ [[]].flatMap ('/' :: ·))⟩ =
        before ++ name :: [[]] := pieces_of_chars hslash hname.not_mem (by simp)
    have hsame : (before ++ [name]).flatMap (· ++ ['/']) =
        before.flatMap (· ++ ['/']) ++ (name ++ [[]].flatMap ('/' :: ·)) := by simp
    rwa [← hsame, ← hchars] at hpieces

end SmaliSieve.Path
