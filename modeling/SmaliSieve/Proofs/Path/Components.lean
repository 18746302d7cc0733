/-
  SmaliSieve.Proofs.Path.Components

  What a path means once names have been added to it.

  Adding a name to a path adds one component, whether a separator has to be written or one
  is there already (`components_join`). Names that are added one after the other are
  therefore the components behind those of the path (`components_joinAll`), and they may as
  well be added all at once, with separators in between (`joinAll_eq_join`).
-/

import Mathlib.Data.List.Basic
import SmaliSieve.Path.Name
import SmaliSieve.Proofs.Text.Cutting

namespace SmaliSieve.Path

/-! ## Names -/

/-- The text can be the name of an entry of a folder: it is not empty, there is no separator
    in it, and it does not stand for the folder itself or the one above. -/
structure IsName (text : List Char) : Prop where
  ne_nil : text ≠ []
  ne_here : text ≠ ['.']
  ne_parent : text ≠ ['.', '.']
  not_mem : '/' ∉ text

instance (text : List Char) : Decidable (IsName text) :=
  decidable_of_iff (text ≠ [] ∧ text ≠ ['.'] ∧ text ≠ ['.', '.'] ∧ '/' ∉ text)
    ⟨fun ⟨hnil, hhere, hparent, hmem⟩ => ⟨hnil, hhere, hparent, hmem⟩,
      fun h => ⟨h.ne_nil, h.ne_here, h.ne_parent, h.not_mem⟩⟩

theorem stepOf_nil : stepOf [] = none := rfl

theorem IsName.isIdle {text : List Char} (h : IsName text) : isIdle text = false := by
  simp [Path.isIdle, h.ne_nil, h.ne_here]

theorem IsName.stepOf {text : List Char} (h : IsName text) : stepOf text = some (.name text) := by
  rw [Path.stepOf, if_neg (by simp [h.isIdle]), if_neg h.ne_parent]

theorem IsName.segments {text : List Char} (h : IsName text) : Text.segments '/' text = [text] :=
  Text.segments_eq_singleton h.not_mem

theorem IsName.head?_ne {text : List Char} (h : IsName text) : text.head? ≠ some '/' :=
  fun hhead => h.not_mem (List.mem_of_mem_head? hhead)

/-- With its first character, which is no dot, a name without dots is told from `.` and `..`,
    whatever is written behind it. -/
theorem IsName.append {stem tail : List Char} (h : IsName stem) (hdot : '.' ∉ stem)
    (htail : '/' ∉ tail) : IsName (stem ++ tail) := by
  obtain ⟨c, more, rfl⟩ := List.exists_cons_of_ne_nil h.ne_nil
  have hc : c ≠ '.' := by
    rintro rfl
    exact hdot List.mem_cons_self
  refine ⟨by simp, by simp [hc], by simp [hc], fun hmem => ?_⟩
  rcases List.mem_append.mp hmem with hmem | hmem
  · exact h.not_mem hmem
  · exact htail hmem

/-! ## Adding one name -/

theorem join_of_nil {path : Path} {tail : List Char} (htail : tail.head? ≠ some '/')
    (h : path.chars = []) : path.join tail = ⟨tail⟩ := by
  rw [join, if_neg htail, h]
  rfl

theorem join_of_slash {path : Path} {tail front : List Char} (htail : tail.head? ≠ some '/')
    (h : path.chars = front ++ ['/']) : path.join tail = ⟨front ++ '/' :: tail⟩ := by
  rw [join, if_neg htail, h, List.getLast?_concat]
  simp

theorem join_of_ne {path : Path} {tail front : List Char} {last : Char}
    (htail : tail.head? ≠ some '/') (h : path.chars = front ++ [last]) (hlast : last ≠ '/') :
    path.join tail = ⟨path.chars ++ '/' :: tail⟩ := by
  have hend : path.chars.getLast? = some last := by rw [h, List.getLast?_concat]
  rw [join, if_neg htail, hend]
  split
  · next hnone => cases hnone
  · next hslash => exact absurd (Option.some.inj hslash) hlast
  · rfl

/-- All that can be added to a path stands behind the same text. -/
theorem exists_lead (path : Path) :
    ∃ lead, ∀ tail : List Char, tail.head? ≠ some '/' → path.join tail = ⟨lead ++ tail⟩ := by
  rcases List.eq_nil_or_concat' path.chars with hnil | ⟨front, last, hchars⟩
  · exact ⟨[], fun tail htail => join_of_nil htail hnil⟩
  · by_cases hlast : last = '/'
    · subst hlast
      refine ⟨front ++ ['/'], fun tail htail => ?_⟩
      rw [join_of_slash htail hchars, List.append_assoc]
      rfl
    · refine ⟨path.chars ++ ['/'], fun tail htail => ?_⟩
      rw [join_of_ne htail hchars hlast, List.append_assoc]
      rfl

/-- A name that is added to a path is one more piece, in place of an empty one behind a
    separator at the end. -/
theorem pieces_join {path : Path} {name : List Char} (h : IsName name) (hne : path.chars ≠ []) :
    ∃ first rest, (path.join name).pieces = first :: (rest ++ [name]) ∧
      (path.pieces = first :: rest ∨ path.pieces = first :: (rest ++ [[]])) := by
  obtain ⟨front, last, hchars⟩ := (List.eq_nil_or_concat' path.chars).resolve_left hne
  by_cases hlast : last = '/'
  · subst hlast
    obtain ⟨first, rest, hfront⟩ :=
      List.exists_cons_of_ne_nil (Text.segments_ne_nil '/' front)
    refine ⟨first, rest, ?_, .inr ?_⟩
    · rw [join_of_slash h.head?_ne hchars]
      simp [pieces, Text.segments_append, hfront, h.segments]
    · simp [pieces, hchars, Text.segments_append, hfront, Text.segments_nil]
  · obtain ⟨first, rest, hpath⟩ :=
      List.exists_cons_of_ne_nil (Text.segments_ne_nil '/' path.chars)
    refine ⟨first, rest, ?_, .inl hpath⟩
    rw [join_of_ne h.head?_ne hchars hlast]
    simp [pieces, Text.segments_append, hpath, h.segments]

/-- The text of the path stays in front of a name that is added. -/
theorem prefix_chars_join {path : Path} {name : List Char} (h : IsName name) :
    path.chars <+: (path.join name).chars := by
  rcases List.eq_nil_or_concat' path.chars with hnil | ⟨front, last, hchars⟩
  · rw [hnil]
    exact List.nil_prefix
  · by_cases hlast : last = '/'
    · subst hlast
      rw [join_of_slash h.head?_ne hchars, hchars]
      exact ⟨name, by simp⟩
    · rw [join_of_ne h.head?_ne hchars hlast]
      exact List.prefix_append _ _

theorem isAbsolute_join {path : Path} {name : List Char} (h : IsName name)
    (hne : path.chars ≠ []) : (path.join name).isAbsolute = path.isAbsolute := by
  obtain ⟨more, hmore⟩ := prefix_chars_join h
  rw [isAbsolute, isAbsolute, ← hmore, List.head?_append_of_ne_nil _ hne]

/-- Adding a name adds one component. -/
theorem components_join (path : Path) {name : List Char} (h : IsName name) :
    (path.join name).components = path.components ++ [.name name] := by
  by_cases hnil : path.chars = []
  · have habsolute : Path.isAbsolute ⟨name⟩ = false := by simpa [isAbsolute] using h.head?_ne
    have hempty : path.components = [] := by simp [components, pieces, hnil, isAbsolute]; rfl
    rw [join_of_nil h.head?_ne hnil, hempty]
    simp [components, pieces, h.segments, habsolute, h.ne_here, h.stepOf]
  · obtain ⟨first, rest, hlonger, hpath⟩ := pieces_join h hnil
    have habsolute := isAbsolute_join h hnil
    -- an empty piece at the end of the path is no step
    rcases hpath with hpath | hpath
    · simp [components, hlonger, hpath, habsolute, h.stepOf]
    · simp [components, hlonger, hpath, habsolute, h.stepOf, stepOf_nil]

/-- A separator that is added is no component. -/
theorem components_join_nil (path : Path) : (path.join []).components = path.components := by
  have hhead : ([] : List Char).head? ≠ some '/' := by simp
  rcases List.eq_nil_or_concat' path.chars with hnil | ⟨front, last, hchars⟩
  · rw [join_of_nil hhead hnil, ← hnil]
  · by_cases hlast : last = '/'
    · subst hlast
      rw [join_of_slash hhead hchars, ← hchars]
    · have hne : path.chars ≠ [] := by simp [hchars]
      obtain ⟨first, rest, hpath⟩ :=
        List.exists_cons_of_ne_nil (Text.segments_ne_nil '/' path.chars)
      have hpieces : path.pieces = first :: rest := hpath
      have hlonger : pieces ⟨path.chars ++ ['/']⟩ = first :: (rest ++ [[]]) := by
        rw [pieces, Text.segments_append, hpath, Text.segments_nil, List.cons_append]
      have habsolute : isAbsolute ⟨path.chars ++ ['/']⟩ = path.isAbsolute := by
        rw [isAbsolute, isAbsolute, List.head?_append_of_ne_nil _ hne]
      rw [join_of_ne hhead hchars hlast, components, components, hlonger, hpieces, habsolute]
      simp [stepOf_nil]

/-! ## Adding names one after the other -/

theorem components_joinAll (path : Path) {names : List (List Char)}
    (h : ∀ name ∈ names, IsName name) :
    (path.joinAll names).components = path.components ++ names.map .name := by
  induction names generalizing path with
  | nil => simp [joinAll]
  | cons name names ih =>
    obtain ⟨hname, hnames⟩ := List.forall_mem_cons.mp h
    show ((path.join name).joinAll names).components = _
    rw [ih _ hnames, components_join path hname, List.append_assoc]
    rfl

theorem joinAll_concat (path : Path) (names : List (List Char)) (name : List Char) :
    path.joinAll (names ++ [name]) = (path.joinAll names).join name := by
  rw [joinAll, List.foldl_append]
  rfl

/-- The text of the path stays in front of all names that are added. -/
theorem prefix_chars_joinAll (path : Path) {names : List (List Char)}
    (h : ∀ name ∈ names, IsName name) : path.chars <+: (path.joinAll names).chars := by
  induction names generalizing path with
  | nil => exact List.prefix_rfl
  | cons name names ih =>
    obtain ⟨hname, hnames⟩ := List.forall_mem_cons.mp h
    exact (prefix_chars_join hname).trans (ih (path.join name) hnames)

theorem prefix_joinAll (path : Path) {names : List (List Char)} (h : ∀ name ∈ names, IsName name) :
    path.components <+: (path.joinAll names).components := by
  rw [components_joinAll path h]
  exact List.prefix_append _ _

/-- What is added behind a name can be added together with it. -/
theorem join_join (path : Path) {name tail : List Char} (h : IsName name)
    (htail : tail.head? ≠ some '/') :
    (path.join name).join tail = path.join (name ++ '/' :: tail) := by
  obtain ⟨lead, hlead⟩ := path.exists_lead
  obtain ⟨front, last, hname⟩ := (List.eq_nil_or_concat' name).resolve_left h.ne_nil
  have hlast : last ≠ '/' := by
    rintro rfl
    exact h.not_mem (by simp [hname])
  have hchars : (path.join name).chars = (lead ++ front) ++ [last] := by
    rw [hlead name h.head?_ne, hname, List.append_assoc]
  have hhead : (name ++ '/' :: tail).head? ≠ some '/' := by
    rw [List.head?_append_of_ne_nil _ h.ne_nil]
    exact h.head?_ne
  rw [join_of_ne htail hchars hlast, hlead _ hhead, hlead name h.head?_ne, List.append_assoc]

theorem head?_joinWith_ne {names : List (List Char)} (hne : names ≠ [])
    (h : ∀ name ∈ names, IsName name) : (Text.joinWith ['/'] names).head? ≠ some '/' := by
  obtain ⟨name, more, rfl⟩ := List.exists_cons_of_ne_nil hne
  have hname : IsName name := h name List.mem_cons_self
  cases more with
  | nil => exact hname.head?_ne
  | cons next more =>
    rw [Text.joinWith_cons _ _ (List.cons_ne_nil _ _), List.append_assoc,
      List.head?_append_of_ne_nil _ hname.ne_nil]
    exact hname.head?_ne

/-- Names that are added one after the other can be added as one text. -/
theorem joinAll_eq_join (path : Path) {names : List (List Char)} (hne : names ≠ [])
    (h : ∀ name ∈ names, IsName name) :
    path.joinAll names = path.join (Text.joinWith ['/'] names) := by
  induction names generalizing path with
  | nil => exact absurd rfl hne
  | cons name names ih =>
    obtain ⟨hname, hnames⟩ := List.forall_mem_cons.mp h
    cases names with
    | nil => rfl
    | cons next more =>
      show (path.join name).joinAll (next :: more) = _
      have hhead : (Text.joinWith ['/'] (next :: more)).head? ≠ some '/' :=
        head?_joinWith_ne (List.cons_ne_nil _ _) hnames
      rw [ih _ (List.cons_ne_nil _ _) hnames, join_join path hname hhead,
        Text.joinWith_cons _ _ (List.cons_ne_nil _ _), List.append_assoc, List.singleton_append]

/-! ## Paths that part -/

/-- Neither path is at or above the other. -/
def Apart (a b : Path) : Prop :=
  ¬ a.components <+: b.components ∧ ¬ b.components <+: a.components

theorem Apart.symm {a b : Path} (h : a.Apart b) : b.Apart a := ⟨h.2, h.1⟩

theorem Apart.ne {a b : Path} (h : a.Apart b) : a.components ≠ b.components := by
  intro hsame
  have hfront : a.components <+: b.components := hsame ▸ List.prefix_rfl
  exact h.1 hfront

/-- Paths at or below two different names in one folder have parted there. -/
theorem Apart.of_join {path a b : Path} {first second : List Char} (hfirst : IsName first)
    (hsecond : IsName second) (hne : first ≠ second)
    (ha : (path.join first).components <+: a.components)
    (hb : (path.join second).components <+: b.components) : a.Apart b := by
  rw [components_join path hfirst] at ha
  rw [components_join path hsecond] at hb
  -- one path that is at or below both names would go on from the folder with both of them
  have hpart : ∀ {longer : Path}, path.components ++ [.name first] <+: longer.components →
      path.components ++ [.name second] <+: longer.components → False := by
    intro longer hone hother
    have hboth := List.prefix_of_prefix_length_le hone hother (by simp)
    exact hne (by simpa using (List.prefix_append_right_inj _).mp hboth)
  exact ⟨fun hab => hpart (ha.trans hab) hb, fun hba => hpart ha (hb.trans hba)⟩

end SmaliSieve.Path
