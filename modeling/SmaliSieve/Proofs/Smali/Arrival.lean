/-
  SmaliSieve.Proofs.Smali.Arrival

  The order in which files arrive does not matter to the class list.

  Files are sorted by name and by the components of their path before anything else is
  done with them. Two files tie only if they agree on both (`SourceFile.order_eq_iff`), so
  without such a pair the sorted files, and with them all that follows, are the same for
  every arrangement (`aggregate_eq_of_perm`).
-/

import SmaliSieve.Proofs.Smali.Grouping

namespace SmaliSieve

/-! ## Ties -/

theorem Component.eq_of_order_eq {a b : Component} (h : Component.order a b = .eq) : a = b := by
  rw [Component.order, compareLex_eq_eq] at h
  have hrank : a.rank = b.rank := Std.LawfulEqCmp.eq_of_compare h.1
  have hlabel : a.label = b.label := Std.LawfulEqCmp.eq_of_compare h.2
  -- the kinds differ in rank, and within a kind only names have something to say
  cases a <;> cases b <;> cases hrank
  case name.name first second => rw [String.ofList_injective hlabel]
  all_goals rfl

instance : Std.LawfulEqCmp Component.order where
  eq_of_compare := Component.eq_of_order_eq

theorem Path.order_eq_iff {a b : Path} : Path.order a b = .eq ↔ a.components = b.components := by
  rw [Path.order, Std.LawfulEqCmp.compare_eq_iff_eq]

namespace Smali

theorem SourceFile.order_eq_iff {a b : SourceFile} :
    SourceFile.order a b = .eq ↔
      a.fileName = b.fileName ∧ a.path.components = b.path.components := by
  rw [SourceFile.order, compareLex_eq_eq, compareOn, Std.LawfulEqCmp.compare_eq_iff_eq,
    Path.order_eq_iff]

/-- No two of the files agree on both the file name and the components of the path. -/
def Distinguished (files : List SourceFile) : Prop :=
  files.Pairwise fun a b => ¬ (a.fileName = b.fileName ∧ a.path.components = b.path.components)

/-! ## Arrangements -/

theorem sortFiles_eq_of_perm {files others : List SourceFile}
    (distinguished : Distinguished files) (h : files.Perm others) :
    sortFiles files = sortFiles others := by
  apply Order.mergeSort_eq_of_perm SourceFile.order _ h
  exact distinguished.imp fun hne heq => hne (SourceFile.order_eq_iff.mp heq)

/-- Files that can be told apart give one class list, however they are arranged. -/
theorem aggregate_eq_of_perm {files others : List SourceFile}
    (distinguished : Distinguished files) (h : files.Perm others) :
    aggregate files = aggregate others := by
  rw [aggregate_eq, declarations, sortFiles_eq_of_perm distinguished h, ← declarations,
    ← aggregate_eq]

end Smali

end SmaliSieve
