/-
  SmaliSieve.Proofs.Tree.Finding

  Finding what stands at a path to which names have been added.

  One more name is one more step: what is found at the longer path is the entry of that name
  in the folder found at the shorter one, as long as neither the name nor the path is too
  long to be looked up (`find_join_iff`). What is found behind any number of names therefore
  stands there in the tree (`at?_of_find_joinAll`), and the way to it leads through the place
  that the path without the names leads to (`locate_joinAll`). A separator alone leads nowhere
  else, but asks for a folder (`locate_join_nil`).
-/

import Mathlib.Data.List.Induction
import SmaliSieve.Proofs.Tree.Reordering

namespace SmaliSieve

theorem Path.defect?_eq_none_iff {path : Path} :
    path.defect? = none ↔ '\x00' ∉ path.chars ∧ path.chars ≠ [] ∧
      Text.byteLength path.chars < pathLimit := by
  rw [defect?]
  by_cases hnul : '\x00' ∈ path.chars
  · simp [hnul]
  · by_cases hnil : path.chars = []
    · simp [hnil]
    · by_cases hlimit : pathLimit ≤ Text.byteLength path.chars
      · simp [hnul, hnil, hlimit, Nat.not_lt.mpr hlimit]
      · simp [hnul, hnil, hlimit, Nat.not_le.mp hlimit]

/-- A path that can be looked up after a name was added could be looked up before. -/
theorem Path.defect?_of_join {path : Path} {name : Name} (hname : IsName name)
    (hne : path.chars ≠ []) (h : (path.join name).defect? = none) : path.defect? = none := by
  rw [defect?_eq_none_iff] at h ⊢
  obtain ⟨hnul, -, hlimit⟩ := h
  obtain ⟨more, hmore⟩ : path.chars <+: (path.join name).chars := prefix_chars_join hname
  rw [← hmore] at hnul hlimit
  refine ⟨fun hmem => hnul (List.mem_append_left _ hmem), hne, ?_⟩
  rw [Text.byteLength_append] at hlimit
  omega

/-- Of two attempts one after the other both succeed, or the whole does not. -/
theorem bind_eq_ok_iff {ε α β : Type} {first : Except ε α} {next : α → Except ε β} {b : β} :
    (first >>= next) = .ok b ↔ ∃ a, first = .ok a ∧ next a = .ok b := by
  cases first with
  | error error => simp [bind, Except.bind]
  | ok a => simp [bind, Except.bind]

namespace Disk

/-! ## Steps -/

/-- A path with a name added starts from where the path starts. -/
theorem start_join (disk : Disk) {path : Path} {name : Name} (hname : Path.IsName name)
    (hne : path.chars ≠ []) : disk.start (path.join name) = disk.start path := by
  rw [start, start, Path.isAbsolute_join hname hne]

theorem locate_eq_ok_iff {disk : Disk} {path : Path} {location : List Name} :
    disk.locate path = .ok location ↔
      path.defect? = none ∧ disk.walk (disk.start path) path.pieces = .ok location := by
  rw [locate]
  cases path.defect? <;> simp

theorem walk_append_eq_ok_iff {disk : Disk} {start last : List Name}
    {front more : List (List Char)} :
    disk.walk start (front ++ more) = .ok last ↔
      ∃ next, disk.walk start front = .ok next ∧ disk.walk next more = .ok last := by
  rw [walk, walk, List.foldlM_append]
  exact bind_eq_ok_iff

theorem walk_cons_eq_ok_iff {disk : Disk} {start last : List Name} {piece : List Char}
    {more : List (List Char)} :
    disk.walk start (piece :: more) = .ok last ↔
      ∃ next, disk.step start piece = .ok next ∧ disk.walk next more = .ok last := by
  rw [walk, List.foldlM_cons]
  exact bind_eq_ok_iff

theorem walk_concat_eq_ok_iff {disk : Disk} {start last : List Name}
    {pieces : List (List Char)} {piece : List Char} :
    disk.walk start (pieces ++ [piece]) = .ok last ↔
      ∃ next, disk.walk start pieces = .ok next ∧ disk.step next piece = .ok last := by
  have hnil : ∀ next, disk.walk next [] = .ok last ↔ next = last :=
    fun next => Except.ok.injEq next last ▸ Iff.rfl
  simp only [walk_append_eq_ok_iff, walk_cons_eq_ok_iff, hnil, exists_eq_right]

/-- All that a step can do: it stays, it goes up, or it goes to an entry, and in each case it
    starts from a folder. -/
theorem step_eq_ok_iff {disk : Disk} {location next : List Name} {piece : List Char} :
    disk.step location piece = .ok next ↔
      ∃ entries, disk.at? location = some (.folder entries) ∧
        (Path.isIdle piece ∧ next = location ∨
          piece = ['.', '.'] ∧ next = location.dropLast ∨
          ¬ Path.isIdle piece ∧ piece ≠ ['.', '.'] ∧ Text.byteLength piece ≤ longestName ∧
            (entries.lookup piece).isSome ∧ next = location ++ [piece]) := by
  rw [step]
  cases disk.at? location with
  | none => simp
  | some tree =>
    cases tree with
    | file contents runnable => simp
    | device reading writing => simp
    | folder entries =>
      simp only [Option.some.injEq, FileTree.folder.injEq, exists_eq_left']
      by_cases hidle : Path.isIdle piece = true
      · have hparent : piece ≠ ['.', '.'] := by
          rintro rfl
          cases hidle
        simpa [hidle, hparent] using eq_comm
      · by_cases hparent : piece = ['.', '.']
        · subst hparent
          simpa [hidle] using eq_comm
        · by_cases hlong : longestName < Text.byteLength piece
          · simp [hidle, hparent, hlong, Nat.not_le.mpr hlong]
          · by_cases hentry : (entries.lookup piece).isSome = true
            · simpa [hidle, hparent, hlong, Nat.not_lt.mp hlong, hentry] using eq_comm
            · simp [hidle, hparent, hlong, hentry]

/-- An empty piece leads nowhere else, but only a folder can be left by it. -/
theorem step_nil_eq_ok_iff {disk : Disk} {location next : List Name} :
    disk.step location [] = .ok next ↔
      next = location ∧ ∃ entries, disk.at? location = some (.folder entries) := by
  have hidle : Path.isIdle [] = true := rfl
  simp [step_eq_ok_iff, hidle, and_comm]

theorem step_name_eq_ok_iff {disk : Disk} {location next : List Name} {name : Name}
    (hname : Path.IsName name) :
    disk.step location name = .ok next ↔
      next = location ++ [name] ∧ Text.byteLength name ≤ longestName ∧
        ∃ entries, disk.at? location = some (.folder entries) ∧
          (entries.lookup name).isSome := by
  rw [step_eq_ok_iff]
  simp only [hname.isIdle, hname.ne_parent, Bool.false_eq_true, false_and, false_or,
    not_false_eq_true, true_and, ne_eq]
  constructor
  · rintro ⟨entries, hfolder, hlength, hentry, hnext⟩
    exact ⟨hnext, hlength, entries, hfolder, hentry⟩
  · rintro ⟨hnext, hlength, entries, hfolder, hentry⟩
    exact ⟨entries, hfolder, hlength, hentry, hnext⟩

/-! ## One more name -/

/-- A path leads into a folder exactly if its text up to the name that is to be added does;
    an empty piece in between makes no difference. -/
theorem walk_pieces_iff {disk : Disk} {path : Path} {front : List (List Char)}
    (h : path.pieces = front ∨ path.pieces = front ++ [[]]) {start location : List Name}
    {entries : List (Name × FileTree)} (hfolder : disk.at? location = some (.folder entries)) :
    disk.walk start path.pieces = .ok location ↔ disk.walk start front = .ok location := by
  rcases h with h | h
  · rw [h]
  · rw [h, walk_concat_eq_ok_iff]
    simp only [step_nil_eq_ok_iff]
    constructor
    · rintro ⟨next, hwalk, rfl, -⟩
      exact hwalk
    · intro hwalk
      exact ⟨location, hwalk, rfl, entries, hfolder⟩

theorem at?_concat_eq_some_iff {disk : Disk} {location : List Name} {name : Name}
    {entries : List (Name × FileTree)} (hfolder : disk.at? location = some (.folder entries))
    {found : FileTree} :
    disk.at? (location ++ [name]) = some found ↔ entries.lookup name = some found := by
  rw [at?_append, hfolder, Option.bind_some, FileTree.at?_folder]
  cases entries.lookup name with
  | none => simp
  | some tree => rw [Option.bind_some, FileTree.at?_nil]

/-- What stands at a path with a name added is the entry of that name. -/
theorem find_join_iff {disk : Disk} {path : Path} {name : Name} (hname : Path.IsName name)
    (hne : path.chars ≠ []) {found : FileTree} :
    disk.find (path.join name) = .ok found ↔
      (path.join name).defect? = none ∧ Text.byteLength name ≤ longestName ∧
        ∃ entries, disk.find path = .ok (.folder entries) ∧
          entries.lookup name = some found := by
  obtain ⟨first, rest, hlonger, hpath⟩ := Path.pieces_join hname hne
  simp only [find_eq_ok_iff, locate_eq_ok_iff, start_join disk hname hne, hlonger,
    ← List.cons_append, walk_concat_eq_ok_iff, step_name_eq_ok_iff hname]
  constructor
  · rintro ⟨_, ⟨hdefect, next, hwalk, rfl, hlength, entries, hfolder, -⟩, hfound⟩
    have hdefect' : path.defect? = none := Path.defect?_of_join hname hne hdefect
    exact ⟨hdefect, hlength, entries,
      ⟨next, ⟨hdefect', (walk_pieces_iff hpath hfolder).mpr hwalk⟩, hfolder⟩,
      (at?_concat_eq_some_iff hfolder).mp hfound⟩
  · rintro ⟨hdefect, hlength, entries, ⟨next, ⟨-, hwalk⟩, hfolder⟩, hfound⟩
    have hentry : (entries.lookup name).isSome := by rw [hfound]; rfl
    exact ⟨next ++ [name],
      ⟨hdefect, next, (walk_pieces_iff hpath hfolder).mp hwalk, rfl, hlength, entries, hfolder,
        hentry⟩,
      (at?_concat_eq_some_iff hfolder).mpr hfound⟩

/-- A path with a name added leads to the entry of that name in the folder that the path
    leads to. -/
theorem locate_join {disk : Disk} {path : Path} {name : Name} (hname : Path.IsName name)
    (hne : path.chars ≠ []) {location : List Name}
    (h : disk.locate (path.join name) = .ok location) :
    ∃ front entries, location = front ++ [name] ∧ disk.locate path = .ok front ∧
      disk.at? front = some (.folder entries) := by
  obtain ⟨first, rest, hlonger, hpath⟩ := Path.pieces_join hname hne
  rw [locate_eq_ok_iff, start_join disk hname hne, hlonger, ← List.cons_append,
    walk_concat_eq_ok_iff] at h
  obtain ⟨hdefect, front, hwalk, hstep⟩ := h
  obtain ⟨rfl, -, entries, hfolder, -⟩ := (step_name_eq_ok_iff hname).mp hstep
  have hdefect' : path.defect? = none := Path.defect?_of_join hname hne hdefect
  exact ⟨front, entries, rfl,
    locate_eq_ok_iff.mpr ⟨hdefect', (walk_pieces_iff hpath hfolder).mpr hwalk⟩, hfolder⟩

/-! ## Any number of names -/

theorem chars_ne_nil_of_find {disk : Disk} {path : Path} {found : FileTree}
    (h : disk.find path = .ok found) : path.chars ≠ [] := by
  obtain ⟨location, hlocate, -⟩ := find_eq_ok_iff.mp h
  exact (Path.defect?_eq_none_iff.mp (locate_eq_ok_iff.mp hlocate).1).2.1

/-- What is found behind names that were added to a path stands there in the tree at the
    path. -/
theorem at?_of_find_joinAll {disk : Disk} {path : Path} {tree found : FileTree}
    (hpath : disk.find path = .ok tree) {names : List Name}
    (hnames : ∀ name ∈ names, Path.IsName name)
    (hfound : disk.find (path.joinAll names) = .ok found) : tree.at? names = some found := by
  -- the last name first: what is found in front of it has to be a folder
  induction names using List.reverseRecOn generalizing found with
  | nil =>
    rw [Path.joinAll, List.foldl_nil, hpath, Except.ok.injEq] at hfound
    rw [FileTree.at?_nil, hfound]
  | append_singleton names name ih =>
    obtain ⟨hfront, hname⟩ := List.forall_mem_append.mp hnames
    have hlast : Path.IsName name := hname name List.mem_cons_self
    have hne : (path.joinAll names).chars ≠ [] := by
      intro hnil
      have hempty := Path.prefix_chars_joinAll path hfront
      rw [hnil] at hempty
      exact chars_ne_nil_of_find hpath (List.prefix_nil.mp hempty)
    rw [Path.joinAll_concat, find_join_iff hlast hne] at hfound
    obtain ⟨-, -, entries, hfolder, hlookup⟩ := hfound
    rw [FileTree.at?_append, ih hfront hfolder, Option.bind_some, FileTree.at?_folder, hlookup,
      Option.bind_some, FileTree.at?_nil]

/-- Names that are added to a path lead further down from where the path leads to, name by
    name. -/
theorem locate_joinAll {disk : Disk} {path : Path} (hne : path.chars ≠ []) {names : List Name}
    (hnames : ∀ name ∈ names, Path.IsName name) {location : List Name}
    (h : disk.locate (path.joinAll names) = .ok location) :
    ∃ front, disk.locate path = .ok front ∧ location = front ++ names := by
  induction names using List.reverseRecOn generalizing location with
  | nil => exact ⟨location, h, (List.append_nil location).symm⟩
  | append_singleton names name ih =>
    obtain ⟨hfront, hname⟩ := List.forall_mem_append.mp hnames
    have hlonger : (path.joinAll names).chars ≠ [] := by
      intro hnil
      have hempty := Path.prefix_chars_joinAll path hfront
      rw [hnil] at hempty
      exact hne (List.prefix_nil.mp hempty)
    rw [Path.joinAll_concat] at h
    obtain ⟨middle, entries, rfl, hmiddle, -⟩ :=
      locate_join (hname name List.mem_cons_self) hlonger h
    obtain ⟨front, hfound, rfl⟩ := ih hfront hmiddle
    exact ⟨front, hfound, List.append_assoc _ _ _⟩

/-- With nothing added but a separator, a path leads where it led before, and only to a
    folder. -/
theorem locate_join_nil {disk : Disk} {path : Path} (hne : path.chars ≠ [])
    {location : List Name} (h : disk.locate (path.join []) = .ok location) :
    disk.locate path = .ok location ∧ ∃ entries, disk.at? location = some (.folder entries) := by
  obtain ⟨front, last, hchars⟩ := (List.eq_nil_or_concat' path.chars).resolve_left hne
  obtain ⟨hdefect, hwalk⟩ := locate_eq_ok_iff.mp h
  by_cases hlast : last = '/'
  · -- the separator is there already
    subst hlast
    have hsame : path.join [] = path := by
      rw [Path.join_of_slash (by simp) hchars, ← hchars]
    rw [hsame] at hdefect hwalk
    have hpieces : path.pieces = Text.segments '/' front ++ [[]] := by
      rw [Path.pieces, hchars, Text.segments_append, Text.segments_nil]
    refine ⟨locate_eq_ok_iff.mpr ⟨hdefect, hwalk⟩, ?_⟩
    rw [hpieces, walk_concat_eq_ok_iff] at hwalk
    obtain ⟨next, -, hstep⟩ := hwalk
    obtain ⟨rfl, hfolder⟩ := step_nil_eq_ok_iff.mp hstep
    exact hfolder
  · have hjoin : path.join [] = ⟨path.chars ++ ['/']⟩ := Path.join_of_ne (by simp) hchars hlast
    rw [hjoin] at hdefect hwalk
    have hpieces : Path.pieces ⟨path.chars ++ ['/']⟩ = path.pieces ++ [[]] := by
      rw [Path.pieces, Text.segments_append, Text.segments_nil]
      rfl
    have hstart : disk.start ⟨path.chars ++ ['/']⟩ = disk.start path := by
      rw [start, start, Path.isAbsolute, Path.isAbsolute, List.head?_append_of_ne_nil _ hne]
    rw [hstart, hpieces, walk_concat_eq_ok_iff] at hwalk
    obtain ⟨next, hnext, hstep⟩ := hwalk
    obtain ⟨rfl, hfolder⟩ := step_nil_eq_ok_iff.mp hstep
    refine ⟨locate_eq_ok_iff.mpr ⟨?_, hnext⟩, hfolder⟩
    -- what keeps the shorter path from being looked up would keep the longer one from it too
    obtain ⟨hnul, -, hlimit⟩ := Path.defect?_eq_none_iff.mp hdefect
    rw [Text.byteLength_append] at hlimit
    exact Path.defect?_eq_none_iff.mpr
      ⟨fun hmem => hnul (List.mem_append_left _ hmem), hne, by omega⟩

end Disk

end SmaliSieve
