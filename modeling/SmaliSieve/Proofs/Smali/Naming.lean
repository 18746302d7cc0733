/-
  SmaliSieve.Proofs.Smali.Naming

  When the class list names no class twice.

  Files are grouped by internal names, records are named by dotted ones, and an internal
  name may hold dots of its own: `a/b` and `a.b` are two classes with one dotted name. So
  the names of the class list are all different exactly if the files are `Unambiguous`
  (`nodup_className_iff`). Internal names without dots are told apart by their dotted names
  (`canonicalName_inj`).
-/

import Mathlib.Data.List.Nodup
import SmaliSieve.Proofs.Smali.Grouping

namespace SmaliSieve

/-- Texts in which `new` does not occur yet are still told apart once it stands for `old`. -/
theorem Text.replaceChar_inj {old new : Char} {first second : List Char}
    (hfirst : new ∉ first) (hsecond : new ∉ second)
    (h : replaceChar old new first = replaceChar old new second) : first = second := by
  -- one character at a time: `new` on both sides stands for `old` on both
  have injOn : ∀ c d : Char, c ≠ new → d ≠ new →
      (if c = old then new else c) = (if d = old then new else d) → c = d := by
    intro c d hc hd hsame
    by_cases hcold : c = old <;> by_cases hdold : d = old
    · rw [hcold, hdold]
    · rw [if_pos hcold, if_neg hdold] at hsame
      exact absurd hsame.symm hd
    · rw [if_neg hcold, if_pos hdold] at hsame
      exact absurd hsame hc
    · rwa [if_neg hcold, if_neg hdold] at hsame
  induction first generalizing second with
  | nil =>
    cases second with
    | nil => rfl
    | cons d second => cases h
  | cons c first ih =>
    cases second with
    | nil => cases h
    | cons d second =>
      obtain ⟨hhead, htail⟩ := List.cons.inj h
      rw [List.mem_cons, not_or] at hfirst hsecond
      rw [injOn c d (Ne.symm hfirst.1) (Ne.symm hsecond.1) hhead,
        ih hfirst.2 hsecond.2 htail]

namespace Smali

/-- A sorted list of names has no repetitions exactly if it is strictly sorted. -/
theorem pairwise_lt_iff_nodup {names : List String} (sorted : names.Pairwise (· ≤ ·)) :
    names.Pairwise (· < ·) ↔ names.Nodup := by
  constructor
  · intro hlt
    apply hlt.imp
    intro first second hless hsame
    subst second
    exact String.lt_irrefl first hless
  · intro hnodup
    exact (sorted.and hnodup).imp fun ⟨hle, hne⟩ =>
      String.not_le.mp fun hge => hne (String.le_antisymm hle hge)

/-- No two classes that the files declare have the same dotted name. -/
def Unambiguous (files : List SourceFile) : Prop :=
  ∀ first ∈ files, ∀ second ∈ files, ∀ internal other : String,
    declaredName? first.content = some internal → declaredName? second.content = some other →
    canonicalName internal = canonicalName other → internal = other

theorem unambiguous_iff {files : List SourceFile} :
    Unambiguous files ↔ ∀ internal ∈ internalNames files, ∀ other ∈ internalNames files,
      canonicalName internal = canonicalName other → internal = other := by
  constructor
  · intro h internal hinternal other hother
    obtain ⟨first, hfirst, hdeclared⟩ := mem_internalNames.mp hinternal
    obtain ⟨second, hsecond, hdeclared'⟩ := mem_internalNames.mp hother
    exact h first hfirst second hsecond internal other hdeclared hdeclared'
  · intro h first hfirst second hsecond internal other hinternal hother
    exact h internal (mem_internalNames.mpr ⟨first, hfirst, hinternal⟩) other
      (mem_internalNames.mpr ⟨second, hsecond, hother⟩)

/-- The dotted names of the class list are those of the declared classes. -/
theorem map_className_aggregate_perm (files : List SourceFile) :
    ((aggregate files).map (·.className)).Perm ((internalNames files).map canonicalName) := by
  have hnames := (aggregate_perm files).map (·.className)
  rwa [List.map_map] at hnames

theorem nodup_className_iff {files : List SourceFile} :
    ((aggregate files).map (·.className)).Nodup ↔ Unambiguous files := by
  rw [(map_className_aggregate_perm files).nodup_iff,
    List.nodup_map_iff_inj_on (nodup_internalNames files), unambiguous_iff]

/-- Dots of its own are what a class needs in order to be taken for another one. -/
theorem canonicalName_inj {internal other : String} (h : '.' ∉ internal.toList)
    (hother : '.' ∉ other.toList) (hsame : canonicalName internal = canonicalName other) :
    internal = other := by
  have htext :
      Text.replaceChar '/' '.' internal.toList = Text.replaceChar '/' '.' other.toList := by
    simpa [canonicalName] using congrArg String.toList hsame
  exact String.toList_injective (Text.replaceChar_inj h hother htext)

end Smali

end SmaliSieve
