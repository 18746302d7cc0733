/-
  SmaliSieve.Proofs.Order.Stable

  Stable sorting by a comparison, and first occurrences, as list algebra.

  `List.mergeSort` keeps entries that compare as equal in their order. What the pipeline
  needs of that is one equation: dropping entries before sorting or after it is the same
  (`filter_mergeSort`). The same holds of keeping first occurrences (`filter_eraseDups`),
  so a filter can be moved past every stage that orders or groups. Groups taken by distinct
  keys hold every entry with such a key once (`groups_perm`). Where no two entries compare
  as equal, the sorted list does not depend on the list it came from (`mergeSort_eq_of_perm`).

  `StablySorted` says what a stable sort is without saying how it is done. Two entries of the
  result ascend or stand as they stood before (`StablySorted.pairwise`).
-/

import Mathlib.Data.List.Nodup
import Mathlib.Data.List.Pairwise

namespace SmaliSieve.Order

/-! ## Comparisons as Boolean orders -/

section Comparison

variable {α : Type} (cmp : α → α → Ordering) [Std.TransCmp cmp]

/-- "Not greater" is transitive. -/
theorem isLE_transitive (a b c : α) (hab : (cmp a b).isLE) (hbc : (cmp b c).isLE) :
    (cmp a c).isLE :=
  Std.TransCmp.isLE_trans hab hbc

/-- Of two entries, one is not greater than the other. -/
theorem isLE_total (a b : α) : (cmp a b).isLE || (cmp b a).isLE := by
  have hswap : cmp b a = (cmp a b).swap := Std.OrientedCmp.eq_swap
  rw [hswap]
  cases cmp a b <;> rfl

/-- A comparison through a key is as good as the comparison of the keys. -/
theorem transCmp_on {β : Type} (key : β → α) : Std.TransCmp fun a b => cmp (key a) (key b) where
  eq_swap := Std.OrientedCmp.eq_swap
  isLE_trans := isLE_transitive cmp _ _ _

/-- The entries of a sorted list do not descend. -/
theorem mergeSort_pairwise (list : List α) :
    (list.mergeSort fun a b => (cmp a b).isLE).Pairwise fun a b => (cmp a b).isLE :=
  List.pairwise_mergeSort (isLE_transitive cmp) (isLE_total cmp) list

/-- Where no two entries tie, sorting forgets how the list was arranged. -/
theorem mergeSort_eq_of_perm {list other : List α}
    (untied : list.Pairwise fun a b => cmp a b ≠ .eq) (h : list.Perm other) :
    (list.mergeSort fun a b => (cmp a b).isLE) = other.mergeSort fun a b => (cmp a b).isLE := by
  have hsymm : Std.Symm fun a b : α => cmp a b ≠ .eq :=
    ⟨fun a b hab hba => hab (Std.OrientedCmp.eq_symm hba)⟩
  have hsorted : (list.mergeSort fun a b => (cmp a b).isLE).Perm
      (other.mergeSort fun a b => (cmp a b).isLE) :=
    (List.mergeSort_perm list _).trans (h.trans (List.mergeSort_perm other _).symm)
  refine hsorted.eq_of_pairwise ?_ (mergeSort_pairwise cmp list) (mergeSort_pairwise cmp other)
  -- two entries that may stand in either order tie, so they are one entry
  intro a b ha hb hab hba
  have hmem : b ∈ list := h.mem_iff.mpr (List.mem_mergeSort.mp hb)
  by_contra hne
  exact untied.forall (List.mem_mergeSort.mp ha) hmem hne (Std.OrientedCmp.isLE_antisymm hab hba)

end Comparison

/-! ## Dropping entries -/

section Stable

variable {α : Type} {le : α → α → Bool}

/-- A list has at most one place for `a`: in front of all entries that `a` is below. -/
theorem place_unique {a : α} {front back front' back' : List α}
    (h : front ++ back = front' ++ back')
    (hfront : ∀ b ∈ front, !le a b) (hback : ∀ b ∈ back, le a b)
    (hfront' : ∀ b ∈ front', !le a b) (hback' : ∀ b ∈ back', le a b) :
    front = front' ∧ back = back' := by
  have taken : ∀ {l r : List α}, (∀ b ∈ l, !le a b) → (∀ b ∈ r, le a b) →
      (l ++ r).takeWhile (fun b => !le a b) = l := by
    intro l r hl hr
    rw [List.takeWhile_append_of_pos hl]
    cases r with
    | nil => simp
    | cons b r => rw [List.takeWhile_cons_of_neg (by simp [hr b (by simp)]), List.append_nil]
  -- both fronts are what stands before the first entry that `a` is below
  have hsame : front = front' := by
    rw [← taken hfront hback, ← taken hfront' hback', h]
  subst hsame
  exact ⟨rfl, List.append_cancel_left h⟩

/-- Sorting is stable, so dropping entries first or last is the same. -/
theorem filter_mergeSort (trans : ∀ a b c, le a b → le b c → le a c)
    (total : ∀ a b, le a b || le b a) (p : α → Bool) (list : List α) :
    (list.mergeSort le).filter p = (list.filter p).mergeSort le := by
  -- sorting `a :: list` puts `a` into the sorted `list`, so all that is left is its place
  induction list with
  | nil => simp
  | cons a list ih =>
    obtain ⟨front, back, hsort, hrest, hfront⟩ := List.mergeSort_cons trans total a list
    have hsorted : (front ++ a :: back).Pairwise fun a b => le a b := by
      rw [← hsort]
      exact List.pairwise_mergeSort trans total _
    rw [hrest, List.filter_append] at ih
    by_cases hp : p a = true
    · rw [hsort, List.filter_append, List.filter_cons_of_pos hp, List.filter_cons_of_pos hp]
      obtain ⟨front', back', hsort', hrest', hfront'⟩ :=
        List.mergeSort_cons trans total a (list.filter p)
      have hsorted' : (front' ++ a :: back').Pairwise fun a b => le a b := by
        rw [← hsort']
        exact List.pairwise_mergeSort trans total _
      have hback : ∀ b ∈ back.filter p, le a b := fun b hb =>
        List.rel_of_pairwise_cons (List.pairwise_append.mp hsorted).2.1 (List.mem_of_mem_filter hb)
      have hback' : ∀ b ∈ back', le a b := fun b hb =>
        List.rel_of_pairwise_cons (List.pairwise_append.mp hsorted').2.1 hb
      -- both sorts put `a` at its only place among the sorted rest
      obtain ⟨rfl, rfl⟩ := place_unique (ih.trans hrest')
        (fun b hb => hfront b (List.mem_of_mem_filter hb)) hback hfront' hback'
      exact hsort'.symm
    · rw [hsort, List.filter_append, List.filter_cons_of_neg hp, List.filter_cons_of_neg hp]
      exact ih

end Stable

/-! ## Ties -/

section Ties

variable {α : Type}

/-- `sorted` has the entries of `list` in ascending order, and those that compare as equal in
    the order in which they stand in `list`. -/
structure StablySorted (cmp : α → α → Ordering) (list sorted : List α) : Prop where
  perm : sorted.Perm list
  ascending : sorted.Pairwise fun a b => (cmp a b).isLE
  ties : ∀ a, (sorted.filter fun b => cmp a b = .eq) = list.filter fun b => cmp a b = .eq

variable {cmp : α → α → Ordering} {list sorted : List α}

/-- Entries that are left out of both lists are not missed. -/
theorem StablySorted.filter (h : StablySorted cmp list sorted) (p : α → Bool) :
    StablySorted cmp (list.filter p) (sorted.filter p) where
  perm := h.perm.filter p
  ascending := h.ascending.filter p
  ties a := by rw [List.filter_comm, h.ties, List.filter_comm]

variable [Std.TransCmp cmp]

theorem stablySorted_mergeSort (list : List α) :
    StablySorted cmp list (list.mergeSort fun a b => (cmp a b).isLE) where
  perm := List.mergeSort_perm list _
  ascending := mergeSort_pairwise cmp list
  ties a := by
    rw [filter_mergeSort (isLE_transitive cmp) (isLE_total cmp)]
    apply List.mergeSort_of_pairwise
    -- what ties with `a` ties with each other, so there is nothing to sort
    apply List.pairwise_of_forall_mem_list
    intro b hb c hc
    have hab : cmp a b = .eq := by simpa using (List.mem_filter.mp hb).2
    have hac : cmp a c = .eq := by simpa using (List.mem_filter.mp hc).2
    have hbc : cmp b c = .eq := Std.TransCmp.eq_trans (Std.OrientedCmp.eq_symm hab) hac
    rw [hbc]
    rfl

/-- Of two entries in a stably sorted list, the first one is smaller, or they tie and stand in
    the same order in the list that was sorted. -/
theorem StablySorted.pairwise (h : StablySorted cmp list sorted) {R : α → α → Prop}
    (hlist : list.Pairwise R) :
    sorted.Pairwise fun a b => cmp a b = .lt ∨ cmp a b = .eq ∧ R a b := by
  rw [List.pairwise_iff_forall_sublist]
  intro a b hpair
  have hle : (cmp a b).isLE := List.pairwise_iff_forall_sublist.mp h.ascending hpair
  cases hcmp : cmp a b with
  | lt => exact .inl rfl
  | gt =>
    rw [hcmp] at hle
    cases hle
  | eq =>
    have haa : cmp a a = .eq := Std.ReflCmp.compare_self
    -- both are among what ties with `a`, which is the same in both lists
    have hties := hpair.filter fun c => decide (cmp a c = .eq)
    rw [h.ties, List.filter_cons_of_pos (by simp [haa]), List.filter_cons_of_pos (by simp [hcmp]),
      List.filter_nil] at hties
    exact .inr ⟨rfl, List.pairwise_iff_forall_sublist.mp hlist (hties.trans List.filter_sublist)⟩

end Ties

/-! ## First occurrences -/

section Dups

variable {α : Type} [BEq α]

/-- Induction along the first occurrences: the tail is taken without the other occurrences
    of the head. -/
theorem dups_induction {motive : List α → Prop} (nil : motive [])
    (cons : ∀ a rest, motive (rest.filter fun b => !b == a) → motive (a :: rest))
    (list : List α) : motive list := by
  induction hlen : list.length using Nat.strongRecOn generalizing list with
  | _ n ih =>
    cases list with
    | nil => exact nil
    | cons a rest =>
      refine cons a rest (ih _ ?_ _ rfl)
      have hle := List.length_filter_le (fun b => !b == a) rest
      rw [List.length_cons] at hlen
      omega

variable [LawfulBEq α]

/-- Each entry stands once in the list of first occurrences. -/
theorem nodup_eraseDups (list : List α) : list.eraseDups.Nodup := by
  induction list using dups_induction with
  | nil => exact List.nodup_nil
  | cons a rest ih =>
    rw [List.eraseDups_cons]
    refine List.nodup_cons.mpr ⟨fun hmem => ?_, ih⟩
    rw [List.mem_eraseDups, List.mem_filter] at hmem
    simp at hmem

/-- Dropping values before or after keeping first occurrences is the same. -/
theorem filter_eraseDups (p : α → Bool) (list : List α) :
    list.eraseDups.filter p = (list.filter p).eraseDups := by
  induction list using dups_induction with
  | nil => rfl
  | cons a rest ih =>
    rw [List.eraseDups_cons]
    by_cases hp : p a = true
    · rw [List.filter_cons_of_pos hp, List.filter_cons_of_pos hp, List.eraseDups_cons, ih,
        List.filter_comm]
    · -- no entry that is kept equals `a`, so removing those that do changes nothing
      have hne : ∀ b ∈ rest, (p b && !b == a) = p b := by
        intro b _
        by_cases hb : b = a
        · subst hb
          simp [hp]
        · simp [hb]
      rw [List.filter_cons_of_neg hp, List.filter_cons_of_neg hp, ih, List.filter_filter,
        List.filter_congr hne]

/-- Without repetitions, each entry is a first occurrence. -/
theorem eraseDups_of_nodup {list : List α} (h : list.Nodup) : list.eraseDups = list := by
  induction list with
  | nil => rfl
  | cons a rest ih =>
    obtain ⟨ha, hrest⟩ := List.nodup_cons.mp h
    have hkept : (rest.filter fun b => !b == a) = rest := by
      rw [List.filter_eq_self]
      intro b hb
      have hne : b ≠ a := fun heq => ha (heq ▸ hb)
      simp [hne]
    rw [List.eraseDups_cons, hkept, ih hrest]

end Dups

/-- The keys of a list, each at its first occurrence, stand in the order of the first entries
    that have them. -/
theorem eraseDups_pairwise_findIdx {α κ : Type} [DecidableEq κ] (key : α → Option κ)
    (list : List α) :
    (list.filterMap key).eraseDups.Pairwise fun k k' =>
      (list.findIdx fun a => key a = some k) < list.findIdx fun a => key a = some k' := by
  induction list with
  | nil => exact .nil
  | cons a rest ih =>
    -- an entry with another key, or with none, puts the first one with this key one place back
    have hlater : ∀ k, key a ≠ some k → ((a :: rest).findIdx fun b => key b = some k) =
        (rest.findIdx fun b => key b = some k) + 1 := by
      intro k hk
      rw [List.findIdx_cons, decide_eq_false hk, cond_false]
    cases hkey : key a with
    | none =>
      rw [List.filterMap_cons_none hkey]
      refine ih.imp fun {k k'} hlt => ?_
      rw [hlater k (by simp [hkey]), hlater k' (by simp [hkey])]
      omega
    | some first =>
      have hother : ∀ k ∈ (rest.filterMap key).eraseDups.filter (fun k => !k == first),
          key a ≠ some k := by
        intro k hmem heq
        have hsame : first = k := Option.some.inj (hkey.symm.trans heq)
        simp [hsame] at hmem
      have hfirst : ((a :: rest).findIdx fun b => key b = some first) = 0 := by
        rw [List.findIdx_cons, decide_eq_true hkey, cond_true]
      rw [List.filterMap_cons_some hkey, List.eraseDups_cons, ← filter_eraseDups]
      refine List.pairwise_cons.mpr ⟨fun k hmem => ?_, ?_⟩
      · rw [hfirst, hlater k (hother k hmem)]
        omega
      · refine (ih.filter _).imp_of_mem fun {k k'} hk hk' hlt => ?_
        rw [hlater k (hother k hk), hlater k' (hother k' hk')]
        omega

/-! ## Groups -/

/-- Taking the groups of some keys one after the other takes each entry with such a key
    once. -/
theorem groups_perm {α κ : Type} [DecidableEq κ] (key : α → Option κ) {keys : List κ}
    (h : keys.Nodup) (list : List α) :
    (keys.flatMap fun k => list.filter fun a => key a = some k).Perm
      (list.filter fun a => (key a).any (· ∈ keys)) := by
  induction keys with
  | nil => simp [List.filter_eq_nil_iff.mpr]
  | cons k keys ih =>
    obtain ⟨hk, hkeys⟩ := List.nodup_cons.mp h
    -- what has one of the keys has the first one or one of the others, and not both
    have hfirst : (list.filter fun a => (key a).any (· ∈ k :: keys)).filter
        (fun a => key a = some k) = list.filter fun a => key a = some k := by
      rw [List.filter_filter]
      apply List.filter_congr
      intro a _
      by_cases ha : key a = some k <;> simp [ha]
    have hothers : (list.filter fun a => (key a).any (· ∈ k :: keys)).filter
        (fun a => !decide (key a = some k)) = list.filter fun a => (key a).any (· ∈ keys) := by
      rw [List.filter_filter]
      apply List.filter_congr
      intro a _
      cases ha : key a with
      | none => simp
      | some k' =>
        by_cases hsame : k' = k
        · subst hsame
          simp [hk]
        · simp [hsame]
    have hsplit := List.filter_append_perm (fun a => decide (key a = some k))
      (list.filter fun a => (key a).any (· ∈ k :: keys))
    rw [hfirst, hothers] at hsplit
    rw [List.flatMap_cons]
    exact ((ih hkeys).append_left _).trans hsplit

end SmaliSieve.Order
