/-
  SmaliSieve.Proofs.Disassembly.Confinement

  The file of a class never lies outside of its root.

  The internal name of a class may hold any characters, slashes and dots in any number and
  order among them. In the dotted name they are all dots, and the dotted name is cut at every
  one of them, so what is left between them are names or nothing. There is no step up among
  them and no start at the root of the file system, and an extension without a separator adds
  none (`sourcePath?_cases`). The path is therefore a list of names, and joined to a root it
  leads to a place at or below that of the root, on any disk (`sourcePath?_confined`).

  A name that is well formed is found again in its path, so different classes have different
  files.
-/

import SmaliSieve.Proofs.Disassembly.ClassPath
import SmaliSieve.Proofs.Path.Spelling

namespace SmaliSieve.Disassembly

open Smali

/-- The extension with the dot that it stands behind. An empty one has no dot. -/
def dottedExtension (extension : String) : List Char :=
  if extension.toList.isEmpty then [] else '.' :: extension.toList

/-! ## Dotted names -/

/-- A piece of a name without slashes that lies between dots is a name, or nothing is there. -/
theorem isName_of_mem_segments {text piece : List Char} (hslash : '/' ∉ text)
    (hmem : piece ∈ Text.segments '.' text) (hne : piece ≠ []) : Path.IsName piece := by
  have hdot : '.' ∉ piece := Text.not_mem_of_mem_segments hmem
  refine ⟨hne, ?_, ?_, fun hin => hslash ?_⟩
  · rintro rfl
    exact hdot (by simp)
  · rintro rfl
    exact hdot (by simp)
  · exact Text.mem_of_mem_segments hmem hin

theorem slash_not_mem_canonicalName (internal : String) :
    '/' ∉ (canonicalName internal).toList := by
  rw [canonicalName, String.toList_ofList, Text.replaceChar, List.mem_map]
  rintro ⟨c, -, hc⟩
  by_cases h : c = '/'
  · rw [if_pos h] at hc
    exact absurd hc (by decide)
  · rw [if_neg h] at hc
    exact h hc

theorem slash_not_mem_dottedExtension {extension : String} (h : '/' ∉ extension.toList) :
    '/' ∉ dottedExtension extension := by
  rw [dottedExtension]
  split
  · exact List.not_mem_nil
  · simp [h]

/-! ## The path of a class -/

/-- Names with separators in between are a path to which the names have been added. -/
theorem joinAll_nil_eq {names : List Name} (h : ∀ name ∈ names, Path.IsName name) :
    (Path.mk []).joinAll names = ⟨Text.joinWith ['/'] names⟩ := by
  cases names with
  | nil => rfl
  | cons name more =>
    have hne : name :: more ≠ [] := List.cons_ne_nil _ _
    rw [Path.joinAll_eq_join _ hne h, Path.join_of_nil (Path.head?_joinWith_ne hne h) rfl]

/-- All that the path of a class can be: the pieces of the dotted name that are not empty, with
    the extension behind the last of them, or nothing if there is no such piece. -/
theorem sourcePath?_cases {className extension : String} (hname : '/' ∉ className.toList)
    (hslash : '/' ∉ extension.toList) :
    sourcePath? className extension = some ⟨[]⟩ ∨
      ∃ folders stem, (∀ folder ∈ folders, Path.IsName folder) ∧ stem ≠ [] ∧ '.' ∉ stem ∧
        Path.IsName (stem ++ dottedExtension extension) ∧
        sourcePath? className extension =
          some ((Path.mk []).joinAll (folders ++ [stem ++ dottedExtension extension])) := by
  have hpieces : ∀ piece ∈ Text.segments '.' className.toList, piece ≠ [] → Path.IsName piece :=
    fun piece hmem hne => isName_of_mem_segments hname hmem hne
  have hspelled := Path.spelledBy_joinAll hpieces
  have hbreaks : Path.breaksName extension.toList = false := by
    simpa [Path.breaksName] using hslash
  rcases List.eq_nil_or_concat' ((Text.segments '.' className.toList).filter (· ≠ [])) with
    hnil | ⟨folders, stem, hconcat⟩
  · -- there is no last name, and the extension is left out with it
    left
    rw [hnil] at hspelled
    have hempty : (Path.mk []).joinAll (Text.segments '.' className.toList) = ⟨[]⟩ :=
      congrArg Path.mk hspelled.chars_eq_nil
    rw [sourcePath?, hempty, Path.withExtension?, hbreaks]
    rfl
  · right
    have hmem : ∀ piece ∈ folders ++ [stem],
        piece ∈ Text.segments '.' className.toList ∧ piece ≠ [] := by
      intro piece hpiece
      rw [← hconcat, List.mem_filter] at hpiece
      exact ⟨hpiece.1, by simpa using hpiece.2⟩
    have hfolders : ∀ folder ∈ folders, Path.IsName folder := by
      intro folder hfolder
      obtain ⟨hin, hne⟩ := hmem folder (List.mem_append_left _ hfolder)
      exact hpieces folder hin hne
    obtain ⟨hin, hne⟩ := hmem stem (by simp)
    have hstem : Path.IsName stem := hpieces stem hin hne
    have hdot : '.' ∉ stem := Text.not_mem_of_mem_segments hin
    have hfile := hstem.append hdot (slash_not_mem_dottedExtension hslash)
    refine ⟨folders, stem, hfolders, hne, hdot, hfile, ?_⟩
    -- without a dot the stem has no extension of its own to be replaced
    rw [hconcat] at hspelled
    obtain ⟨idle, hnamed⟩ := hspelled.exists_named hfolders hstem
    have hnames : ∀ name ∈ folders ++ [stem ++ dottedExtension extension], Path.IsName name :=
      List.forall_mem_append.mpr ⟨hfolders, by simpa using hfile⟩
    rw [sourcePath?, Path.withExtension?, hbreaks, hnamed.splitName?, joinAll_nil_eq hnames,
      Text.joinWith_concat]
    simp [Path.splitExtension_of_not_mem hdot, dottedExtension]

/-- The path of a class is a list of names, which may be empty. -/
theorem exists_names_sourcePath? {className extension : String} (hname : '/' ∉ className.toList)
    (hslash : '/' ∉ extension.toList) :
    ∃ names, (∀ name ∈ names, Path.IsName name) ∧
      sourcePath? className extension = some ((Path.mk []).joinAll names) := by
  rcases sourcePath?_cases hname hslash with hnil | ⟨folders, stem, hfolders, -, -, hfile, hpath⟩
  · exact ⟨[], by simp, hnil⟩
  · exact ⟨_, List.forall_mem_append.mpr ⟨hfolders, by simpa using hfile⟩, hpath⟩

/-! ## Below the root -/

theorem isAbsolute_joinAll_nil {names : List Name} (h : ∀ name ∈ names, Path.IsName name) :
    ((Path.mk []).joinAll names).isAbsolute = false := by
  rw [joinAll_nil_eq h, Path.isAbsolute]
  cases names with
  | nil => rfl
  | cons name more =>
    simpa using Path.head?_joinWith_ne (List.cons_ne_nil name more) h

theorem components_joinAll_nil {names : List Name} (h : ∀ name ∈ names, Path.IsName name) :
    ((Path.mk []).joinAll names).components = names.map .name :=
  Path.components_joinAll ⟨[]⟩ h

/-- Joined to a path, a list of names is added name by name, and an empty one leaves a separator
    at most. -/
theorem join_joinAll_nil (root : Path) {names : List Name} (hne : names ≠ [])
    (h : ∀ name ∈ names, Path.IsName name) :
    root.join ((Path.mk []).joinAll names).chars = root.joinAll names := by
  rw [joinAll_nil_eq h, Path.joinAll_eq_join root hne h]

theorem components_join_names (root : Path) {names : List Name}
    (h : ∀ name ∈ names, Path.IsName name) :
    (root.join ((Path.mk []).joinAll names).chars).components =
      root.components ++ names.map .name := by
  cases names with
  | nil => exact (Path.components_join_nil root).trans (List.append_nil _).symm
  | cons name more =>
    rw [join_joinAll_nil root (List.cons_ne_nil name more) h, Path.components_joinAll root h]

/-- On a disk, names that are joined to a path lead to a place at or below that of the path. -/
theorem prefix_of_locate_join {disk : Disk} {root : Path} (hne : root.chars ≠ [])
    {names : List Name} (h : ∀ name ∈ names, Path.IsName name) {place : List Name}
    (hplace : disk.locate (root.join ((Path.mk []).joinAll names).chars) = .ok place) :
    ∃ above, disk.locate root = .ok above ∧ above <+: place := by
  cases names with
  | nil => exact ⟨place, (Disk.locate_join_nil hne hplace).1, List.prefix_rfl⟩
  | cons name more =>
    rw [join_joinAll_nil root (List.cons_ne_nil name more) h] at hplace
    obtain ⟨above, habove, rfl⟩ := Disk.locate_joinAll hne h hplace
    exact ⟨above, habove, List.prefix_append _ _⟩

/-! ## Different classes -/

theorem fileFor_inj {internal other extension : String}
    (h : fileFor other extension = fileFor internal extension) : other = internal :=
  String.toList_injective (List.append_cancel_right h)

/-- Whatever characters the internal name of a class has, its path is relative and has ordinary
    names for components, and joined to a root it stays at or below the root, in the text and on
    every disk. The path of a well-formed name is the name with the extension behind it, so two
    such names have two paths. -/
theorem sourcePath?_confined (internal extension : String) (hslash : '/' ∉ extension.toList) :
    (∃ relative, sourcePath? (canonicalName internal) extension = some relative ∧
      relative.isAbsolute = false ∧
      (∀ step ∈ relative.components, ∃ name, step = .name name ∧ Path.IsName name) ∧
      (∀ root : Path, (root.join relative.chars).components =
        root.components ++ relative.components) ∧
      ∀ (disk : Disk) (root : Path) (place : List Name), root.chars ≠ [] →
        disk.locate (root.join relative.chars) = .ok place →
          ∃ above, disk.locate root = .ok above ∧ above <+: place) ∧
    (extension ≠ "" → WellNamed internal →
      sourcePath? (canonicalName internal) extension =
          some (.ofString (internal ++ "." ++ extension)) ∧
        ∀ other, WellNamed other →
          sourcePath? (canonicalName other) extension =
            sourcePath? (canonicalName internal) extension → other = internal) := by
  constructor
  · obtain ⟨names, hnames, hpath⟩ :=
      exists_names_sourcePath? (slash_not_mem_canonicalName internal) hslash
    refine ⟨_, hpath, isAbsolute_joinAll_nil hnames, fun step hstep => ?_, fun root => ?_,
      fun disk root place hne hplace => prefix_of_locate_join hne hnames hplace⟩
    · rw [components_joinAll_nil hnames, List.mem_map] at hstep
      obtain ⟨name, hname, rfl⟩ := hstep
      exact ⟨name, rfl, hnames name hname⟩
    · rw [components_join_names root hnames, components_joinAll_nil hnames]
  · intro hext hnamed
    have hpath := sourcePath?_canonicalName hnamed hext hslash
    refine ⟨?_, fun other hother hsame => ?_⟩
    · rw [hpath, Path.ofString, fileFor]
      simp
    · rw [hpath, sourcePath?_canonicalName hother hext hslash] at hsame
      exact fileFor_inj (Path.mk.inj (Option.some.inj hsame))

/-- A name that would lead to the root of the file system and up from there leads below the root
    of the disassembly, and the name of an inner class is spelled out. -/
theorem sourcePath?_confined_upwards :
    let upwards := "/../..//etc/passwd/"
    let inner := "a/B$1"
    '/' ∉ "smali".toList ∧ "smali" ≠ "" ∧
      declaredName? (".class L" ++ upwards ++ ";") = some upwards ∧
      sourcePath? (canonicalName upwards) "smali" = some (.ofString "etc/passwd.smali") ∧
      (∀ root : Path, (root.join "etc/passwd.smali".toList).components =
        root.components ++ [.name "etc".toList, .name "passwd.smali".toList]) ∧
      WellNamed inner ∧ sourcePath? (canonicalName inner) "smali" = some (.ofString "a/B$1.smali") ∧
      ∀ other, WellNamed other →
        sourcePath? (canonicalName other) "smali" = sourcePath? (canonicalName inner) "smali" →
          other = inner := by
  intro upwards inner
  have hslash : '/' ∉ "smali".toList := by decide
  have hext : "smali" ≠ "" := by decide
  have hpath :
      sourcePath? (canonicalName upwards) "smali" = some (.ofString "etc/passwd.smali") := by
    decide +kernel
  have hinner : WellNamed inner := by decide
  obtain ⟨⟨relative, hrelative, -, -, hbelow, -⟩, -⟩ := sourcePath?_confined upwards "smali" hslash
  obtain rfl := Option.some.inj (hrelative.symm.trans hpath)
  obtain ⟨hspelled, honly⟩ := (sourcePath?_confined inner "smali" hslash).2 hext hinner
  exact ⟨hslash, hext, by decide +kernel, hpath, hbelow, hinner, hspelled, honly⟩

end SmaliSieve.Disassembly
