/-
  SmaliSieve.Proofs.Tree.Frame

  What a change at one place of a disk leaves as it was.

  Everything stays that does not stand at or below the place; of a folder on the way only the
  entries differ (`Disk.unchanged_alter`). A path that comes through places where nothing has
  changed still leads to the same file (`Disk.find_of_unchanged`).
-/

import SmaliSieve.Proofs.Tree.Finding

namespace SmaliSieve

namespace FileTree

/-! ## A change at one place -/

theorem lookup_alterEntry_self (name : Name) (change : Option FileTree → Option FileTree)
    (entries : List (Name × FileTree))
    (h : entries.lookup name = none ∨ (change (entries.lookup name)).isSome) :
    (alterEntry name change entries).lookup name = change (entries.lookup name) := by
  induction entries with
  | nil =>
    rw [alterEntry, List.lookup_nil]
    cases change none <;> simp
  | cons entry rest ih =>
    obtain ⟨key, tree⟩ := entry
    by_cases hkey : key = name
    · subst hkey
      have hself : ((key, tree) :: rest).lookup key = some tree := List.lookup_cons_self
      rw [hself] at h ⊢
      rw [alterEntry, if_pos rfl]
      cases hchange : change (some tree) with
      | none => simp [hchange] at h
      | some new => simp
    · have hbeq : (name == key) = false := by simpa using Ne.symm hkey
      rw [List.lookup_cons, hbeq] at h ⊢
      rw [alterEntry, if_neg hkey, List.lookup_cons, hbeq]
      exact ih h

theorem isSome_alter_cons (change : Option FileTree → Option FileTree) (name : Name)
    (more : List Name) (tree : FileTree) : (alter change (name :: more) (some tree)).isSome := by
  cases tree <;> rfl

/-- A change at one place leaves everything as it is that is not at or below the place. -/
theorem kind_alter (change : Option FileTree → Option FileTree) {changed location : List Name}
    (h : ¬ changed <+: location) (tree : FileTree) :
    ((alter change changed (some tree)).bind (·.at? location)).map kind =
      (tree.at? location).map kind := by
  induction changed generalizing tree location with
  | nil => exact absurd List.nil_prefix h
  | cons name more ih =>
    cases tree with
    | file contents runnable => rfl
    | device reading writing => rfl
    | folder entries =>
      show ((folder (alterEntry name (alter change more) entries)).at? location).map kind = _
      cases location with
      | nil => rw [at?_nil, at?_nil]; rfl
      | cons other rest =>
        rw [at?_folder, at?_folder]
        by_cases hother : other = name
        · -- the change is in this entry, but further down
          subst hother
          have hmore : ¬ more <+: rest := fun hpart =>
            h (List.cons_prefix_cons.mpr ⟨rfl, hpart⟩)
          obtain ⟨next, below, rfl⟩ : ∃ next below, more = next :: below :=
            List.exists_cons_of_ne_nil (by rintro rfl; exact hmore List.nil_prefix)
          cases hentry : entries.lookup other with
          | none => rw [lookup_alterEntry_self _ _ _ (.inl hentry), hentry]; rfl
          | some found =>
            rw [lookup_alterEntry_self _ _ _ (.inr ?_), hentry]
            · exact ih hmore found
            · rw [hentry]
              exact isSome_alter_cons change next below found
        · rw [lookup_alterEntry _ _ _ _ hother]

/-- With a change further down, the entry on the way there is the changed one. -/
theorem lookup_alterEntry_concat (change : Option FileTree → Option FileTree)
    {first name : Name} {front : List Name} {entries : List (Name × FileTree)} {found : FileTree}
    (hfound : entries.lookup first = some found) :
    (alterEntry first (alter change (front ++ [name])) entries).lookup first =
      alter change (front ++ [name]) (some found) := by
  have hsome : (alter change (front ++ [name]) (some found)).isSome := by
    cases front <;> exact isSome_alter_cons _ _ _ _
  rw [lookup_alterEntry_self _ _ _ (.inr (by rw [hfound]; exact hsome)), hfound]

theorem at?_alter_concat (change : Option FileTree → Option FileTree) {front : List Name}
    {name : Name} {tree new : FileTree} {entries : List (Name × FileTree)}
    (hfolder : tree.at? front = some (folder entries))
    (hnew : change (entries.lookup name) = some new) :
    (alter change (front ++ [name]) (some tree)).bind (·.at? (front ++ [name])) = some new := by
  induction front generalizing tree with
  | nil =>
    rw [at?_nil, Option.some.injEq] at hfolder
    subst hfolder
    show (folder (alterEntry name change entries)).at? [name] = _
    rw [at?_folder, lookup_alterEntry_self _ _ _ (.inr (by rw [hnew]; rfl)), hnew,
      Option.bind_some, at?_nil]
  | cons first front ih =>
    obtain ⟨others, rfl⟩ := isFolder_eq_true_iff.mp (isFolder_of_at?_cons hfolder)
    rw [at?_folder, Option.bind_eq_some_iff] at hfolder
    obtain ⟨found, hfound, hbelow⟩ := hfolder
    show (folder (alterEntry first (alter change (front ++ [name])) others)).at?
      (first :: (front ++ [name])) = _
    rw [at?_folder, lookup_alterEntry_concat change hfound]
    exact ih hbelow

end FileTree

namespace Disk

/-- What stands at the location also stands there on the other disk: the same file or device,
    or a folder, whatever is in it, or nothing. -/
def Unchanged (disk other : Disk) (location : List Name) : Prop :=
  (other.at? location).map FileTree.kind = (disk.at? location).map FileTree.kind

theorem root_alter_cons (disk : Disk) (change : Option FileTree → Option FileTree) (name : Name)
    (more : List Name) : FileTree.alter change (name :: more) (some disk.root) =
      some (disk.alter (name :: more) change).root := rfl

theorem unchanged_alter (disk : Disk) (change : Option FileTree → Option FileTree)
    {changed location : List Name} (h : ¬ changed <+: location) :
    Unchanged disk (disk.alter changed change) location := by
  cases changed with
  | nil => exact absurd List.nil_prefix h
  | cons name more =>
    have hkind := FileTree.kind_alter change h disk.root
    rwa [root_alter_cons, Option.bind_some] at hkind

theorem at?_alter_concat (disk : Disk) (change : Option FileTree → Option FileTree)
    {front : List Name} {name : Name} {new : FileTree} {entries : List (Name × FileTree)}
    (hfolder : disk.at? front = some (.folder entries))
    (hnew : change (entries.lookup name) = some new) :
    (disk.alter (front ++ [name]) change).at? (front ++ [name]) = some new := by
  have hroot : disk.root.at? front = some (.folder entries) := hfolder
  have hat := FileTree.at?_alter_concat change hroot hnew
  cases front with
  | nil => exact hat
  | cons first front => exact hat

/-! ## Ways on disks that differ -/

variable {disk other : Disk} {location next : List Name}

theorem Unchanged.exists_kind (h : Unchanged disk other location) {found : FileTree}
    (hfound : disk.at? location = some found) :
    ∃ found', other.at? location = some found' ∧ found'.kind = found.kind := by
  rw [Unchanged, hfound, Option.map_some, Option.map_eq_some_iff] at h
  exact h

theorem Unchanged.folder (h : Unchanged disk other location) {entries : List (Name × FileTree)}
    (hfolder : disk.at? location = some (.folder entries)) :
    ∃ others, other.at? location = some (.folder others) := by
  obtain ⟨found, hfound, hkind⟩ := h.exists_kind hfolder
  obtain ⟨others, rfl⟩ := FileTree.isFolder_eq_true_iff.mp (FileTree.isFolder_of_kind_eq hkind)
  exact ⟨others, hfound⟩

/-- A step is possible on the other disk if nothing has changed at either end of it. -/
theorem Unchanged.step (hhere : Unchanged disk other location) (hnext : Unchanged disk other next)
    {piece : List Char} (h : disk.step location piece = .ok next) :
    other.step location piece = .ok next := by
  obtain ⟨entries, hfolder, hcases⟩ := step_eq_ok_iff.mp h
  obtain ⟨others, hfolder'⟩ := hhere.folder hfolder
  refine step_eq_ok_iff.mpr ⟨others, hfolder', ?_⟩
  rcases hcases with hstay | hup | ⟨hidle, hparent, hlength, hentry, rfl⟩
  · exact .inl hstay
  · exact .inr (.inl hup)
  · -- the entry is where the step leads to, so it is on the other disk too
    obtain ⟨found, hfound⟩ := Option.isSome_iff_exists.mp hentry
    obtain ⟨found', hfound', -⟩ :=
      hnext.exists_kind ((at?_concat_eq_some_iff hfolder).mpr hfound)
    have hentry' : (others.lookup piece).isSome := by
      rw [(at?_concat_eq_some_iff hfolder').mp hfound']
      rfl
    exact .inr (.inr ⟨hidle, hparent, hlength, hentry', rfl⟩)

/-- A way is possible on the other disk if nothing has changed at any place on it. -/
theorem walk_of_unchanged {start : List Name} {pieces : List (List Char)}
    (hway : ∀ front, front <+: pieces → ∀ location, disk.walk start front = .ok location →
      Unchanged disk other location)
    (h : disk.walk start pieces = .ok location) : other.walk start pieces = .ok location := by
  induction pieces using List.reverseRecOn generalizing location with
  | nil => exact h
  | append_singleton pieces piece ih =>
    obtain ⟨middle, hfront, hstep⟩ := walk_concat_eq_ok_iff.mp h
    have hmiddle : Unchanged disk other middle := hway pieces (List.prefix_append _ _) _ hfront
    have hend : Unchanged disk other location := hway _ List.prefix_rfl _ h
    have hfront' : other.walk start pieces = .ok middle :=
      ih (fun front hpart => hway front (hpart.trans (List.prefix_append _ _))) hfront
    exact walk_concat_eq_ok_iff.mpr ⟨middle, hfront', hmiddle.step hend hstep⟩

theorem start_eq_of_current (h : disk.current = other.current) (path : Path) :
    disk.start path = other.start path := by
  rw [start, start, h]

end Disk

end SmaliSieve
