/-
  SmaliSieve.Proofs.Namespace.Containment

  When a name lies in a namespace, and when one namespace lies in another.

  The stem of a namespace is what is left of it without the dots at its end
  (`isStem_iff`). Compared part by part, a name lies in a namespace exactly if it is the
  stem or goes on behind the stem with a dot (`segment_covers_iff_stem`), also where the
  stem is empty or parts of the name are.

  A namespace is a name itself. It lies in its own namespace (`covers_self`), and whatever
  lies in a namespace that lies in another one lies in that as well (`covers_trans`), in
  both modes: dots at the end count for a name and not for a namespace, but taking them off
  a name does not take it out of a namespace (`Within.withoutEndDots`).
-/

import Mathlib.Data.List.Basic
import SmaliSieve.Namespace.Matching
import SmaliSieve.Proofs.Text.Cutting

namespace SmaliSieve.Namespace

/-! ## Stems -/

/-- `stem` is `space` without the dots at its end. -/
structure IsStem (stem space : List Char) : Prop where
  dots : ∃ count, space = stem ++ List.replicate count '.'
  last_ne : stem.getLast? ≠ some '.'

theorem isStem_withoutEndDots (space : List Char) : IsStem (withoutEndDots space) space where
  dots := by
    obtain ⟨tail, hspace, htail⟩ := Text.exists_dropEndWhile_append (· = '.') space
    have hdots : tail = List.replicate tail.length '.' :=
      List.eq_replicate_of_mem fun c hc => by simpa using htail c hc
    refine ⟨tail.length, ?_⟩
    rw [← hdots]
    exact hspace
  last_ne := by
    intro hlast
    have hne : decide ('.' = '.') = false := Text.getLast?_dropEndWhile hlast
    simp at hne

/-- A text that does not end with a dot is its own stem. -/
theorem withoutEndDots_of_last_ne {stem : List Char} (h : stem.getLast? ≠ some '.') :
    withoutEndDots stem = stem := by
  rcases List.eq_nil_or_concat' stem with rfl | ⟨front, last, rfl⟩
  · rfl
  · have hlast : last ≠ '.' := by simpa using h
    exact Text.dropEndWhile_append_singleton_of_neg (by simpa using hlast) front

theorem withoutEndDots_append_replicate (stem : List Char) (count : Nat) :
    withoutEndDots (stem ++ List.replicate count '.') = withoutEndDots stem := by
  have hdots : Text.dropEndWhile (· = '.') (List.replicate count '.') = [] := by
    rw [Text.dropEndWhile_eq_nil_iff]
    intro c hc
    simpa using List.eq_of_mem_replicate hc
  rw [withoutEndDots, Text.dropEndWhile_append, if_pos hdots]
  rfl

theorem isStem_iff {stem space : List Char} : IsStem stem space ↔ stem = withoutEndDots space := by
  constructor
  · rintro ⟨⟨count, rfl⟩, hlast⟩
    rw [withoutEndDots_append_replicate, withoutEndDots_of_last_ne hlast]
  · rintro rfl
    exact isStem_withoutEndDots space

/-! ## Names behind a stem -/

/-- `name` is `stem` or goes on behind it with a dot. -/
def Within (name stem : List Char) : Prop :=
  name = stem ∨ stem ++ ['.'] <+: name

theorem Within.trans {name stem outer : List Char} (h : Within name stem)
    (houter : Within stem outer) : Within name outer := by
  rcases h with rfl | hname
  · exact houter
  · rcases houter with rfl | hstem
    · exact .inr hname
    · have hfront : stem <+: name := (List.prefix_append stem ['.']).trans hname
      exact .inr (hstem.trans hfront)

/-- A name goes on behind a stem without the dots at its end just as well. -/
theorem Within.withoutEndDots {name stem : List Char} (h : Within name stem)
    (hlast : stem.getLast? ≠ some '.') : Within (withoutEndDots name) stem := by
  rcases h with rfl | ⟨rest, rfl⟩
  · exact .inl (withoutEndDots_of_last_ne hlast)
  · rw [List.append_assoc, List.singleton_append, Namespace.withoutEndDots,
      Text.dropEndWhile_append]
    split
    · -- nothing but dots stands behind the stem
      exact .inl (withoutEndDots_of_last_ne hlast)
    · next hne =>
      -- what is left of the part behind the stem still starts with its first dot
      obtain ⟨tail, htail, -⟩ := Text.exists_dropEndWhile_append (· = '.') ('.' :: rest)
      obtain ⟨c, more, hmore⟩ := List.exists_cons_of_ne_nil hne
      rw [hmore, List.cons_append] at htail
      obtain ⟨rfl, -⟩ := List.cons.inj htail
      refine .inr ⟨more, ?_⟩
      rw [hmore, List.append_assoc]
      rfl

theorem parts_prefix_iff {stem name : List Char} : parts stem <+: parts name ↔ Within name stem :=
  Text.segments_prefix_iff

theorem segment_covers_iff_within {name space : String} :
    Mode.segment.covers name space = true ↔
      Within name.toList (withoutEndDots space.toList) := by
  rw [segment_covers_iff, parts_prefix_iff]

/-- Compared part by part, a name lies in a namespace exactly if it is the stem of that, or
    starts with the stem and a dot. -/
theorem segment_covers_iff_stem (name space : String) :
    (∀ stem, IsStem stem space.toList ↔ stem = withoutEndDots space.toList) ∧
      (Mode.segment.covers name space = true ↔
        name.toList = withoutEndDots space.toList ∨
          withoutEndDots space.toList ++ ['.'] <+: name.toList) :=
  ⟨fun _ => isStem_iff, segment_covers_iff_within⟩

/-- The stem of three dots is empty, so of two names that one lies in it whose first part is. -/
example : Mode.segment.covers ".Main" "..." = true ∧ Mode.segment.covers "com" "..." = false := by
  decide +kernel

/-! ## Namespaces in namespaces -/

theorem covers_self (mode : Mode) (space : String) : mode.covers space space = true := by
  cases mode with
  | plain => exact plain_covers_iff.mpr List.prefix_rfl
  | segment =>
    rw [segment_covers_iff_within]
    obtain ⟨⟨count, hspace⟩, -⟩ := isStem_withoutEndDots space.toList
    cases count with
    | zero => exact .inl (by simpa using hspace)
    | succ count =>
      refine .inr ⟨List.replicate count '.', ?_⟩
      rw [List.append_assoc, List.singleton_append, ← List.replicate_succ]
      exact hspace.symm

/-- What lies in a namespace lies in every namespace around that. -/
theorem covers_trans {mode : Mode} {name space outer : String}
    (h : mode.covers name space = true) (houter : mode.covers space outer = true) :
    mode.covers name outer = true := by
  cases mode with
  | plain =>
    rw [plain_covers_iff] at h houter ⊢
    exact houter.trans h
  | segment =>
    rw [segment_covers_iff_within] at h houter ⊢
    have hlast := (isStem_withoutEndDots outer.toList).last_ne
    -- the dots that do not count for `space` as a namespace are taken off it as a name
    exact h.trans (houter.withoutEndDots hlast)

end SmaliSieve.Namespace
