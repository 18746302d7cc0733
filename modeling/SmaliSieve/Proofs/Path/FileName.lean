/-
  SmaliSieve.Proofs.Path.FileName

  The last name of a path, and where in the text it stands.

  A path that leads to a name is the pieces in front of the name, the name, and idle pieces
  behind it (`Named`). The text is put together from them and falls into them again
  (`Named.chars_eq`, `pieces_of_chars`), and the components are those in front and the name
  (`Named.components`); every path that has a name as its last component is of this form
  (`exists_named`).

  An extension is cut off the name at the last dot (`splitExtension_append`). Dropping it
  takes characters off the end of the text first, whatever stands there, so what is left of
  the name depends on the idle pieces in one case: a name that is one dot and an extension
  (`Named.dropExtension_eq`).
-/

import Mathlib.Data.List.Basic
import SmaliSieve.Path.Name
import SmaliSieve.Proofs.Path.Components

namespace SmaliSieve.Path

/-! ## Pieces in front of a name and behind it -/

/-- `name` is the last step of the path: `before` are the pieces in front of it, and those
    behind it, `idle`, are no steps. -/
structure Named (path : Path) (before : List (List Char)) (name : List Char)
    (idle : List (List Char)) : Prop where
  pieces_eq : path.pieces = before ++ name :: idle
  isName : IsName name
  idle_behind : ∀ piece ∈ idle, isIdle piece

theorem isIdle_iff {piece : List Char} : isIdle piece ↔ piece = [] ∨ piece = ['.'] := by
  simp [isIdle]

theorem not_mem_of_isIdle {piece : List Char} (h : isIdle piece) : '/' ∉ piece := by
  rcases isIdle_iff.mp h with rfl | rfl <;> decide

theorem filterMap_stepOf_idle {idle : List (List Char)} (h : ∀ piece ∈ idle, isIdle piece) :
    idle.filterMap stepOf = [] := by
  refine List.filterMap_eq_nil_iff.mpr fun piece hmem => ?_
  rw [stepOf, if_pos (h piece hmem)]

section Text

/-- A text that is put together from pieces falls into them again. -/
theorem pieces_of_chars {before behind : List (List Char)} {piece : List Char}
    (hbefore : ∀ other ∈ before, '/' ∉ other) (hpiece : '/' ∉ piece)
    (hbehind : ∀ other ∈ behind, '/' ∉ other) :
    pieces ⟨before.flatMap (· ++ ['/']) ++ (piece ++ behind.flatMap ('/' :: ·))⟩ =
      before ++ piece :: behind := by
  rw [pieces, Text.segments_flatMap_append hbefore, Text.segments_append_flatMap piece hbehind,
    Text.segments_eq_singleton hpiece, List.singleton_append]

theorem pieces_of_chars_concat {before : List (List Char)} {piece : List Char}
    (hbefore : ∀ other ∈ before, '/' ∉ other) (hpiece : '/' ∉ piece) :
    pieces ⟨before.flatMap (· ++ ['/']) ++ piece⟩ = before ++ [piece] := by
  rw [pieces, Text.segments_flatMap_append hbefore, Text.segments_eq_singleton hpiece]

variable {path : Path} {before idle : List (List Char)} {name : List Char}

theorem Named.not_mem_before (h : path.Named before name idle) :
    ∀ piece ∈ before, '/' ∉ piece := by
  intro piece hmem
  have hpiece : piece ∈ path.pieces := h.pieces_eq ▸ List.mem_append_left _ hmem
  exact Text.not_mem_of_mem_segments hpiece

theorem Named.chars_eq (h : path.Named before name idle) :
    path.chars = before.flatMap (· ++ ['/']) ++ (name ++ idle.flatMap ('/' :: ·)) := by
  rw [← Text.joinWith_segments '/' path.chars, ← Text.joinWith_eq_flatMap,
    ← Text.joinWith_append ['/'] before (List.cons_ne_nil name idle), ← h.pieces_eq]
  rfl

/-- The name is found, and in front of it is all text that stands there. -/
theorem Named.splitName? (h : path.Named before name idle) :
    path.splitName? = some (before.flatMap (· ++ ['/']), name) := by
  have hdrop : path.pieces.reverse.dropWhile isIdle = name :: before.reverse := by
    have hbehind : ∀ piece ∈ idle.reverse, isIdle piece :=
      fun piece hmem => h.idle_behind piece (List.mem_reverse.mp hmem)
    rw [h.pieces_eq, List.reverse_append, List.reverse_cons, List.append_assoc,
      List.singleton_append, List.dropWhile_append_of_pos hbehind,
      List.dropWhile_cons_of_neg (by simp [h.isName.isIdle])]
  rw [Path.splitName?, hdrop]
  simp [h.isName.ne_parent]

/-- Nothing stands behind a name that is the last piece. -/
theorem Named.getLast?_pieces_iff (h : path.Named before name idle) :
    path.pieces.getLast? = some name ↔ idle = [] := by
  rw [h.pieces_eq]
  rcases List.eq_nil_or_concat' idle with rfl | ⟨front, last, rfl⟩
  · simp
  · have hlast : isIdle last := h.idle_behind last (by simp)
    have hne : last ≠ name := by
      rintro rfl
      rw [h.isName.isIdle] at hlast
      cases hlast
    rw [← List.cons_append, ← List.append_assoc, List.getLast?_concat]
    simp [hne]

end Text

/-! ## Components in front of a step -/

/-- The components of the pieces in front of a step. -/
def stepsBefore : List (List Char) → List Component
  | [] => []
  | first :: rest =>
    (if first = [] then [.root] else if first = ['.'] then [.here] else (stepOf first).toList) ++
      rest.filterMap stepOf

/-- An absolute path starts with an empty piece, and more pieces follow. -/
theorem isAbsolute_iff {path : Path} {first : List Char} {rest : List (List Char)}
    (h : path.pieces = first :: rest) : path.isAbsolute ↔ first = [] ∧ rest ≠ [] := by
  rw [pieces] at h
  rw [isAbsolute]
  cases hchars : path.chars with
  | nil =>
    rw [hchars, Text.segments_nil] at h
    obtain ⟨-, rfl⟩ := List.cons.inj h
    simp
  | cons c text =>
    rw [hchars] at h
    by_cases hc : c = '/'
    · subst hc
      rw [Text.segments_cons_mark] at h
      obtain ⟨rfl, rfl⟩ := List.cons.inj h
      simp [Text.segments_ne_nil]
    · obtain ⟨piece, more, -, hcons⟩ := Text.segments_cons_ne hc text
      rw [hcons] at h
      obtain ⟨rfl, rfl⟩ := List.cons.inj h
      simp [hc]

/-- Whether a path is absolute is settled in front of the first piece that is not empty. -/
theorem isAbsolute_eq {path : Path} {before rest : List (List Char)} {piece : List Char}
    (h : path.pieces = before ++ piece :: rest) (hpiece : piece ≠ []) :
    path.isAbsolute = decide (before.head? = some []) := by
  cases before with
  | nil =>
    rw [Bool.eq_iff_iff, isAbsolute_iff h]
    simp [hpiece]
  | cons first before =>
    rw [Bool.eq_iff_iff, isAbsolute_iff h]
    simp

/-- What the pieces in front of a step mean does not depend on the step. -/
theorem components_eq {path : Path} {before rest : List (List Char)} {piece : List Char}
    (h : path.pieces = before ++ piece :: rest) (hstart : before = [] → isIdle piece = false) :
    path.components = stepsBefore before ++ (piece :: rest).filterMap stepOf := by
  cases before with
  | nil =>
    -- the step is the first piece, and as it is not idle the path is not absolute
    have hpiece : ¬ isIdle piece := by simp [hstart rfl]
    have hne : piece ≠ [] ∧ piece ≠ ['.'] := by rwa [isIdle_iff, not_or] at hpiece
    have habsolute : path.isAbsolute = false := isAbsolute_eq h hne.1
    rw [List.nil_append] at h
    rw [components, h, stepsBefore]
    simp only [habsolute, Bool.false_eq_true, if_false, if_neg hne.2, List.nil_append]
    cases hstep : stepOf piece <;> simp [hstep]
  | cons first before =>
    have habsolute : path.isAbsolute = decide (first = []) := by
      rw [Bool.eq_iff_iff, isAbsolute_iff h]
      simp
    rw [List.cons_append] at h
    rw [components, h, stepsBefore]
    simp only [habsolute, decide_eq_true_eq, List.filterMap_append, List.append_assoc]

theorem Named.components {path : Path} {before idle : List (List Char)} {name : List Char}
    (h : path.Named before name idle) :
    path.components = stepsBefore before ++ [.name name] := by
  rw [components_eq h.pieces_eq fun _ => h.isName.isIdle,
    List.filterMap_cons_some h.isName.stepOf, filterMap_stepOf_idle h.idle_behind]

/-- Pieces are idle, or the last step is one of them. -/
theorem idle_or_exists_last (pieces : List (List Char)) :
    (∀ piece ∈ pieces, isIdle piece) ∨
      ∃ before piece idle, pieces = before ++ piece :: idle ∧ isIdle piece = false ∧
        ∀ other ∈ idle, isIdle other := by
  induction pieces with
  | nil => exact .inl fun _ hmem => absurd hmem List.not_mem_nil
  | cons first rest ih =>
    rcases ih with hidle | ⟨before, piece, idle, rfl, hpiece, hidle⟩
    · cases hfirst : isIdle first with
      | true => exact .inl (List.forall_mem_cons.mpr ⟨hfirst, hidle⟩)
      | false => exact .inr ⟨[], first, rest, rfl, hfirst, hidle⟩
    · exact .inr ⟨first :: before, piece, idle, rfl, hpiece, hidle⟩

/-- A path whose last component is a name ends with it, but for idle pieces. -/
theorem exists_named {path : Path} {name : List Char}
    (h : path.components.getLast? = some (.name name)) :
    ∃ before idle, path.Named before name idle := by
  rcases idle_or_exists_last path.pieces with hall | ⟨before, piece, idle, hpieces, hpiece, hidle⟩
  · -- idle pieces alone are at most the start of a path
    exfalso
    cases hpieces : path.pieces with
    | nil =>
      rw [components, hpieces] at h
      cases h
    | cons first rest =>
      rw [hpieces] at hall
      obtain ⟨hfirst, hrest⟩ := List.forall_mem_cons.mp hall
      rw [components, hpieces] at h
      simp only [filterMap_stepOf_idle hrest, List.append_nil, stepOf, if_pos hfirst] at h
      split at h
      · cases h
      · split at h <;> cases h
  · -- the last step is the last component, so it is the name
    have hcomponents := components_eq hpieces fun _ => hpiece
    have hne : piece ≠ [] ∧ piece ≠ ['.'] := by
      rw [← not_or, ← isIdle_iff, hpiece]
      exact Bool.false_ne_true
    rw [List.filterMap_cons, filterMap_stepOf_idle hidle] at hcomponents
    by_cases hparent : piece = ['.', '.']
    · subst hparent
      rw [hcomponents, show stepOf ['.', '.'] = some .parent from rfl, List.getLast?_concat] at h
      cases h
    · have hmem : piece ∈ path.pieces := by simp [hpieces]
      have hname : IsName piece := ⟨hne.1, hne.2, hparent, Text.not_mem_of_mem_segments hmem⟩
      rw [hcomponents, hname.stepOf, List.getLast?_concat] at h
      obtain rfl : piece = name := by simpa using h
      exact ⟨before, idle, hpieces, hname, hidle⟩

/-- The file name is the last component, if that is a name. -/
theorem fileName?_of_getLast? {path : Path} {name : List Char}
    (h : path.components.getLast? = some (.name name)) : path.fileName? = some name := by
  obtain ⟨before, idle, hnamed⟩ := exists_named h
  rw [fileName?, hnamed.splitName?]
  rfl

/-- The name that was added last is the file name. -/
theorem fileName?_join (path : Path) {name : List Char} (h : IsName name) :
    (path.join name).fileName? = some name := by
  have hlast : (path.join name).components.getLast? = some (.name name) := by
    rw [components_join path h, List.getLast?_concat]
  exact fileName?_of_getLast? hlast

/-! ## The extension of a name -/

theorem splitExtension_of_not_mem {name : List Char} (h : '.' ∉ name) :
    splitExtension name = (name, none) := by
  have hall : name.reverse.takeWhile (· ≠ '.') = name.reverse := by
    rw [List.takeWhile_eq_self_iff]
    intro c hmem
    have hne : c ≠ '.' := by
      rintro rfl
      exact h (List.mem_reverse.mp hmem)
    simpa using hne
  rw [splitExtension, hall]
  simp

/-- What stands behind the last dot is the extension, unless nothing stands in front. -/
theorem splitExtension_append (stem : List Char) {extension : List Char}
    (h : '.' ∉ extension) :
    splitExtension (stem ++ '.' :: extension) =
      if stem = [] then ('.' :: extension, none) else (stem, some extension) := by
  have hbehind : (stem ++ '.' :: extension).reverse.takeWhile (· ≠ '.') = extension.reverse := by
    have hall : ∀ c ∈ extension.reverse, decide (c ≠ '.') = true := by
      intro c hmem
      have hne : c ≠ '.' := by
        rintro rfl
        exact h (List.mem_reverse.mp hmem)
      simpa using hne
    rw [List.reverse_append, List.reverse_cons, List.append_assoc, List.singleton_append,
      List.takeWhile_append_of_pos hall, List.takeWhile_cons_of_neg (by simp), List.append_nil]
  have hfront : (stem ++ '.' :: extension).length - extension.length - 1 = stem.length := by
    rw [List.length_append, List.length_cons]
    omega
  rw [splitExtension, hbehind, List.reverse_reverse, hfront, List.take_left]
  by_cases hstem : stem = []
  · simp [hstem]
  · simp [hstem]
    omega

/-- A name with an extension is cut at its last dot. -/
theorem splitExtension_eq_some_iff {name extension : List Char} :
    (splitExtension name).2 = some extension ↔
      ∃ stem, stem ≠ [] ∧ '.' ∉ extension ∧ name = stem ++ '.' :: extension := by
  constructor
  · intro h
    by_cases hmem : '.' ∈ name
    · obtain ⟨back, front, hreverse, hback⟩ :=
        List.eq_append_cons_of_mem (List.mem_reverse.mpr hmem)
      have hname : name = front.reverse ++ '.' :: back.reverse := by
        rw [← List.reverse_reverse name, hreverse]
        simp
      have hdot : '.' ∉ back.reverse := fun hin => hback (List.mem_reverse.mp hin)
      rw [hname, splitExtension_append _ hdot] at h
      split at h
      · cases h
      · next hstem =>
        obtain rfl := Option.some.inj h
        exact ⟨front.reverse, hstem, hdot, hname⟩
    · rw [splitExtension_of_not_mem hmem] at h
      cases h
  · rintro ⟨stem, hstem, hdot, rfl⟩
    rw [splitExtension_append stem hdot, if_neg hstem]

section Extension

variable {path : Path} {before idle : List (List Char)} {name stem extension : List Char}

theorem Named.extension? (h : path.Named before name idle) :
    path.extension? = (splitExtension name).2 := by
  rw [Path.extension?, fileName?, h.splitName?]
  rfl

/-! ## Dropping the extension -/

/-- Idle pieces that are cut off somewhere are still idle pieces. -/
theorem exists_take_idle {idle : List (List Char)} (h : ∀ piece ∈ idle, isIdle piece)
    (count : Nat) :
    ∃ less : List (List Char), (∀ piece ∈ less, isIdle piece) ∧
      (idle.flatMap ('/' :: ·)).take count = less.flatMap ('/' :: ·) := by
  induction idle generalizing count with
  | nil => exact ⟨[], h, List.take_nil⟩
  | cons piece idle ih =>
    obtain ⟨hpiece, hidle⟩ := List.forall_mem_cons.mp h
    cases count with
    | zero => exact ⟨[], fun _ hmem => absurd hmem List.not_mem_nil, rfl⟩
    | succ count =>
      -- the separator is kept, so a piece follows it: what is left of this one
      obtain ⟨less, hless, htake⟩ := ih hidle (count - piece.length)
      have hcut : isIdle (piece.take count) := by
        rcases isIdle_iff.mp hpiece with rfl | rfl <;> cases count <;> simp [isIdle]
      refine ⟨piece.take count :: less, List.forall_mem_cons.mpr ⟨hcut, hless⟩, ?_⟩
      rw [List.flatMap_cons, List.cons_append, List.take_succ_cons, List.take_append, htake,
        List.flatMap_cons]
      rfl

/-- As many characters as the extension has are gone from the end of the text: the name goes on
    behind its last dot for as many characters as there were behind it. -/
theorem Named.take_chars (h : path.Named before (stem ++ '.' :: extension) idle) :
    path.chars.take (path.chars.length - extension.length) =
      before.flatMap (· ++ ['/']) ++
        ((stem ++ '.' :: extension.take (idle.flatMap ('/' :: ·)).length) ++
          (idle.flatMap ('/' :: ·)).take
            ((idle.flatMap ('/' :: ·)).length - extension.length)) := by
  have hchars : path.chars = (before.flatMap (· ++ ['/']) ++ (stem ++ ['.'])) ++
      (extension ++ idle.flatMap ('/' :: ·)) := by
    rw [h.chars_eq]
    simp
  have hlength : path.chars.length - extension.length =
      (before.flatMap (· ++ ['/']) ++ (stem ++ ['.'])).length +
        (idle.flatMap ('/' :: ·)).length := by
    rw [hchars]
    simp only [List.length_append]
    omega
  rw [hlength, hchars, List.take_length_add_append, List.take_append]
  simp

theorem splitName?_of_parent {before : List (List Char)}
    (h : path.pieces = before ++ [['.', '.']]) : path.splitName? = none := by
  rw [Path.splitName?, h, List.reverse_append, List.reverse_singleton, List.singleton_append,
    List.dropWhile_cons_of_neg (by decide)]
  rfl

theorem Named.withExtension?_nil (h : path.Named before (stem ++ '.' :: extension) idle)
    (hstem : stem ≠ []) (hdot : '.' ∉ extension) :
    path.withExtension? [] = some ⟨before.flatMap (· ++ ['/']) ++ stem⟩ := by
  have hbreaks : breaksName [] = false := rfl
  rw [withExtension?, hbreaks, h.splitName?]
  simp [splitExtension_append stem hdot, hstem]

/-- Without its extension the path ends with the stem, and nothing is left behind that. Only
    where the stem is a dot and nothing stood behind the name, the dot of the extension is left
    too. -/
theorem Named.dropExtension_eq (h : path.Named before (stem ++ '.' :: extension) idle)
    (hstem : stem ≠ []) (hdot : '.' ∉ extension) :
    path.dropExtension = ⟨before.flatMap (· ++ ['/']) ++
      if stem = ['.'] ∧ idle = [] then ['.', '.'] else stem⟩ := by
  have hextension : path.extension? = some extension :=
    h.extension?.trans (splitExtension_eq_some_iff.mpr ⟨stem, hstem, hdot, rfl⟩)
  rw [dropExtension, hextension]
  dsimp only
  rw [h.take_chars]
  by_cases hdots : stem = ['.'] ∧ idle = []
  · obtain ⟨rfl, rfl⟩ := hdots
    -- two dots are no name, so there is nothing to be replaced
    have hnone :=
      splitName?_of_parent (pieces_of_chars_concat h.not_mem_before (by decide : '/' ∉ ['.', '.']))
    simp [withExtension?, hnone, breaksName]
  · -- what is left of the text ends with a name again, whose stem is the same
    obtain ⟨less, hless, htake⟩ := exists_take_idle h.idle_behind
      ((idle.flatMap ('/' :: ·)).length - extension.length)
    set rest := extension.take (idle.flatMap ('/' :: ·)).length with hrest
    have hname : IsName (stem ++ '.' :: rest) := by
      refine ⟨by simp, by simp [List.append_eq_singleton_iff, hstem], fun hparent => ?_,
        fun hmem => h.isName.not_mem ?_⟩
      · -- two dots would be left of a dot and an extension only, with nothing behind them
        obtain ⟨rfl, hnil⟩ : stem = ['.'] ∧ rest = [] := by
          rcases stem with _ | ⟨c, _ | ⟨d, more⟩⟩ <;> simp_all
        rcases List.take_eq_nil_iff.mp hnil with hnone | rfl
        · have hidle : idle = [] := by
            cases idle with
            | nil => rfl
            | cons piece idle => simp at hnone
          exact hdots ⟨rfl, hidle⟩
        · exact h.isName.ne_parent rfl
      · rcases List.mem_append.mp hmem with hmem | hmem
        · exact List.mem_append_left _ hmem
        · rcases List.mem_cons.mp hmem with hmem | hmem
          · exact absurd hmem (by decide)
          · exact List.mem_append_right _ (List.mem_cons_of_mem _ (List.mem_of_mem_take hmem))
    have hnamed : Named ⟨before.flatMap (· ++ ['/']) ++
        ((stem ++ '.' :: rest) ++ less.flatMap ('/' :: ·))⟩ before (stem ++ '.' :: rest) less :=
      ⟨pieces_of_chars h.not_mem_before hname.not_mem fun other hmem =>
        not_mem_of_isIdle (hless other hmem), hname, hless⟩
    have hdot' : '.' ∉ rest := fun hmem => hdot (List.mem_of_mem_take hmem)
    rw [htake, hnamed.withExtension?_nil hstem hdot', Option.getD_some, if_neg hdots]

end Extension

end SmaliSieve.Path
