/-
  SmaliSieve.Proofs.App.Enumeration

  The order in which a file system enumerates its folders does not matter.

  It decides in which order the files of a tree are read (`collect_perm`), but the files can
  be told apart (`collect_distinguished`), and for such files the order of arrival does not
  show in the class list (`aggregate_eq_of_perm`). An application that reads the tree ends
  up the same either way (`load_eq_of_reordered`).
-/

import SmaliSieve.Proofs.App.Effect
import SmaliSieve.Proofs.Disassembly.Files

namespace SmaliSieve.App

open Disassembly (Layout collect_distinguished collect_perm)
open Smali

/-- Files that can be told apart give the same class list however they are arranged. The
    files of a tree can be told apart, so an application that reads the tree is the same
    afterwards, its classes and methods included, in whatever order the folders of the tree
    are enumerated. -/
theorem load_eq_of_reordered :
    (∀ files others : List SourceFile, Distinguished files → files.Perm others →
        aggregate files = aggregate others) ∧
      ∀ (layout : Layout) (disk other : Disk) (app : App), disk.Proper → disk.Reordered other →
        Distinguished (app.filesOf layout disk) ∧
          (app.filesOf layout disk).Perm (app.filesOf layout other) ∧
          (app.load layout disk).value = (app.load layout other).value := by
  refine ⟨fun files others => aggregate_eq_of_perm, ?_⟩
  intro layout disk other app proper reordered
  have hdistinguished : Distinguished (app.filesOf layout disk) :=
    collect_distinguished layout proper app.folder
  have hperm : (app.filesOf layout disk).Perm (app.filesOf layout other) :=
    collect_perm layout proper reordered app.folder
  refine ⟨hdistinguished, hperm, ?_⟩
  rw [load_value, load_value, aggregate_eq_of_perm hdistinguished hperm]

/-- A disk with a decompiled tree that has two roots, and in each a file of the class `x.A`
    with one method. The first root enumerated is `first`. -/
def twoRoots (first second : Name × String) : Disk :=
  ⟨[("app".toList, .folder ([first, second].map fun root =>
    (root.1, .folder [("A.smali".toList,
      .file (".class Lx/A;\n.method " ++ root.2 ++ "()V\n.end method").toUTF8 false)])))], []⟩

/-- The file of the root that is enumerated first is read first, and yet the application is
    the same. -/
theorem load_eq_of_reordered_twoRoots :
    let near : Name × String := ("smali".toList, "a")
    let far : Name × String := ("smali_classes2".toList, "b")
    let app := App.ofFolder (.ofString "app") true
    (twoRoots near far).Proper ∧ (twoRoots near far).Reordered (twoRoots far near) ∧
      (app.filesOf .usual (twoRoots near far)).map (·.path.text) =
        ["app/smali/A.smali", "app/smali_classes2/A.smali"] ∧
      (app.filesOf .usual (twoRoots far near)).map (·.path.text) =
        ["app/smali_classes2/A.smali", "app/smali/A.smali"] ∧
      (app.load .usual (twoRoots near far)).value = (app.load .usual (twoRoots far near)).value ∧
      Distinguished (app.filesOf .usual (twoRoots near far)) ∧
      (app.filesOf .usual (twoRoots near far)).Perm (app.filesOf .usual (twoRoots far near)) ∧
      aggregate (app.filesOf .usual (twoRoots near far)) =
        aggregate (app.filesOf .usual (twoRoots far near)) := by
  intro near far app
  have proper : (twoRoots near far).Proper :=
    .cons (by decide) (by decide)
      (.cons (by decide) (by decide)
        (.cons (by decide) (by decide) (.file _ _) .nil)
        (.cons (by decide) (by decide)
          (.cons (by decide) (by decide) (.file _ _) .nil) .nil)) .nil
  have reordered : (twoRoots near far).Reordered (twoRoots far near) :=
    ⟨@FileTree.Reordered.inside [] [] "app".toList _ _ (.entries (.swap _ _ _)), rfl⟩
  obtain ⟨hdistinguished, hperm, hload⟩ :=
    load_eq_of_reordered.2 .usual (twoRoots near far) (twoRoots far near) app proper reordered
  exact ⟨proper, reordered, by decide +kernel, by decide +kernel, hload, hdistinguished, hperm,
    load_eq_of_reordered.1 _ _ hdistinguished hperm⟩

end SmaliSieve.App
