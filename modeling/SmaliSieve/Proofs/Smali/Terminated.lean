/-
  SmaliSieve.Proofs.Smali.Terminated

  Names that a semicolon ends, and text that is put behind them.

  A directive is read no further than to the next semicolon behind its keyword, so text
  behind that one makes no difference to it (`nameAt_append`). Where the name that a text
  declares is `Terminated`, its semicolon stands behind every place at which a directive was
  looked for up to then. None of these places becomes a directive and the one that was found
  keeps its name, whatever is put behind the text (`declaredName?_append`).
-/

import SmaliSieve.Proofs.Smali.Directive
import SmaliSieve.Proofs.Text.Cutting

namespace SmaliSieve.Smali

open Text (chop? isBlank isWord)

/-! ## The directive that declares the class -/

/-- The directive that declares the class of `text`: of all occurrences of the keyword with an
    opening in their run it is the first one, and of the openings in its run the last one is
    the one between `before` and `after`. -/
structure Declaring (text front run behind before after : List Char) : Prop where
  occurs : Occurrence text front run behind
  opening : Opening run behind before after
  first : ∀ front' run' behind' before' after', Occurrence text front' run' behind' →
    Opening run' behind' before' after' → front.length ≤ front'.length
  last : ∀ before' after', Opening run behind before' after' → before'.length ≤ before.length

/-- If the text declares a class, a semicolon ends the name: it stands behind the letter that
    opens the name. -/
def Terminated (text : List Char) : Prop :=
  ∀ front run behind before after, Declaring text front run behind before after →
    ';' ∈ after ++ behind

variable {text front run behind before after : List Char}

theorem exists_declaring (h : (nameAt text).isSome) :
    ∃ run behind before after, Declaring text [] run behind before after := by
  obtain ⟨name, hname⟩ := Option.isSome_iff_exists.mp h
  obtain ⟨run, behind, before, after, hoccurs, hopening, hlast, -⟩ := nameAt_eq_some_iff.mp hname
  exact ⟨run, behind, before, after, hoccurs, hopening, fun _ _ _ _ _ _ _ => Nat.zero_le _, hlast⟩

theorem Declaring.front_eq_nil (h : Declaring text front run behind before after)
    (hname : (nameAt text).isSome) : front = [] := by
  obtain ⟨run', behind', before', after', hstart⟩ := exists_declaring hname
  have hlength : front.length ≤ 0 := h.first [] run' behind' before' after' hstart.occurs
    hstart.opening
  exact List.length_eq_zero_iff.mp (Nat.le_zero.mp hlength)

theorem isRunChar_semicolon : isRunChar ';' = false := by decide +kernel

/-- Neither the keyword nor the run in front of the name has a semicolon in it. -/
theorem Declaring.mem_iff (h : Declaring text front run behind before after) :
    ';' ∈ after ++ behind ↔ ';' ∈ classKeyword ++ (run ++ behind) := by
  have hkeyword : ';' ∉ classKeyword := by decide
  have hrun : ';' ∉ run := by
    intro hmem
    have hchar : isRunChar ';' = true := h.occurs.chars ';' hmem
    rw [isRunChar_semicolon] at hchar
    cases hchar
  have hafter : ';' ∉ after := by
    rw [h.opening.split] at hrun
    exact fun hmem => hrun (List.mem_append_right _ (List.mem_cons_of_mem _ hmem))
  simp only [List.mem_append, hkeyword, hrun, hafter, false_or]

/-- Where no name is declared at the start of a text, its directive is that of the rest. -/
theorem declaring_cons_iff {c : Char} (hnone : nameAt (c :: text) = none) :
    Declaring (c :: text) front run behind before after ↔
      ∃ front', front = c :: front' ∧ Declaring text front' run behind before after := by
  -- a directive at the start would declare a name there
  have hstart : ∀ {front run behind before after : List Char},
      Occurrence (c :: text) front run behind → Opening run behind before after →
        ∃ front', front = c :: front' ∧ Occurrence text front' run behind := by
    intro front run behind before after hoccurs hopening
    have hsplit := hoccurs.split
    cases front with
    | nil =>
      have hsome := hoccurs.isSome_nameAt hopening
      rw [List.nil_append] at hsplit
      rw [← hsplit, hnone] at hsome
      cases hsome
    | cons d front' =>
      obtain ⟨rfl, hrest⟩ := List.cons.inj hsplit
      exact ⟨front', rfl, hrest, hoccurs.chars, hoccurs.maximal, hoccurs.blank⟩
  have hcons : ∀ {front run behind : List Char}, Occurrence text front run behind →
      Occurrence (c :: text) (c :: front) run behind := fun hoccurs =>
    ⟨congrArg (c :: ·) hoccurs.split, hoccurs.chars, hoccurs.maximal, hoccurs.blank⟩
  constructor
  · intro h
    obtain ⟨front', rfl, hoccurs⟩ := hstart h.occurs h.opening
    refine ⟨front', rfl, hoccurs, h.opening, ?_, h.last⟩
    intro other run' behind' before' after' hoccurs' hopening'
    exact Nat.le_of_succ_le_succ
      (h.first (c :: other) run' behind' before' after' (hcons hoccurs') hopening')
  · rintro ⟨front', rfl, h⟩
    refine ⟨hcons h.occurs, h.opening, ?_, h.last⟩
    intro other run' behind' before' after' hoccurs' hopening'
    obtain ⟨other', rfl, hoccurs''⟩ := hstart hoccurs' hopening'
    exact Nat.succ_le_succ (h.first other' run' behind' before' after' hoccurs'' hopening')

/-! ## Looking for the semicolon -/

/-- A semicolon stands behind the first place at which a name is declared, if there is one. -/
def semicolonBehind : List Char → Bool
  | [] => true
  | c :: rest => if (nameAt (c :: rest)).isSome then ';' ∈ c :: rest else semicolonBehind rest

theorem terminated_iff : Terminated text ↔ semicolonBehind text = true := by
  induction text with
  | nil =>
    refine ⟨fun _ => rfl, fun _ front run behind before after h => ?_⟩
    have hkeyword : classKeyword ≠ [] := by decide
    obtain ⟨-, hrest⟩ := List.append_eq_nil_iff.mp h.occurs.split.symm
    exact absurd (List.append_eq_nil_iff.mp hrest).1 hkeyword
  | cons c text ih =>
    rw [semicolonBehind]
    cases hname : nameAt (c :: text) with
    | some name =>
      have hsome : (nameAt (c :: text)).isSome := by rw [hname]; rfl
      rw [Option.isSome_some, if_pos rfl, decide_eq_true_eq]
      constructor
      · intro h
        obtain ⟨run, behind, before, after, hdeclaring⟩ := exists_declaring hsome
        have hmem := hdeclaring.mem_iff.mp (h [] run behind before after hdeclaring)
        rwa [hdeclaring.occurs.split]
      · intro hmem front run behind before after h
        obtain rfl := h.front_eq_nil hsome
        rw [h.occurs.split] at hmem
        exact h.mem_iff.mpr hmem
    | none =>
      rw [Option.isSome_none, if_neg Bool.false_ne_true, ← ih]
      constructor
      · intro h front run behind before after hdeclaring
        exact h (c :: front) run behind before after
          ((declaring_cons_iff hname).mpr ⟨front, rfl, hdeclaring⟩)
      · intro h front run behind before after hdeclaring
        obtain ⟨front', -, hrest⟩ := (declaring_cons_iff hname).mp hdeclaring
        exact h front' run behind before after hrest

instance : Decidable (Terminated text) := decidable_of_iff _ terminated_iff.symm

theorem mem_of_semicolonBehind (h : semicolonBehind text = true)
    (hname : (declaredNameIn text).isSome) : ';' ∈ text := by
  induction text with
  | nil => cases hname
  | cons c text ih =>
    rw [semicolonBehind] at h
    rw [declaredNameIn_cons] at hname
    cases hhere : nameAt (c :: text) with
    | some name => simpa [hhere] using h
    | none =>
      rw [hhere, Option.isSome_none, if_neg Bool.false_ne_true] at h
      rw [hhere, Option.none_or] at hname
      exact List.mem_cons_of_mem _ (ih h hname)

/-! ## More text behind a semicolon -/

theorem upToSemicolon_append (h : ';' ∈ text) (more : List Char) :
    upToSemicolon (text ++ more) = upToSemicolon text :=
  Text.takeWhile_append_of_mem h more

theorem nameFrom_append (h : ';' ∈ text) (more : List Char) :
    nameFrom (text ++ more) = nameFrom text := by
  cases text with
  | nil => cases h
  | cons c rest =>
    rw [List.cons_append, nameFrom_cons, nameFrom_cons]
    by_cases hletter : c = 'L'
    · subst hletter
      have hrest : ';' ∈ rest := (List.mem_cons.mp h).resolve_left (by decide)
      rw [upToSemicolon_append hrest]
    · rw [if_neg hletter, if_neg hletter]

/-- The run ends in front of the semicolon, and all of its openings are told by the text up to
    there. -/
theorem lastNameIn_append (h : ';' ∈ text) (more : List Char) (blankBefore : Bool) :
    lastNameIn blankBefore (text ++ more) = lastNameIn blankBefore text := by
  induction text generalizing blankBefore with
  | nil => cases h
  | cons c rest ih =>
    rw [List.cons_append]
    cases hrun : isRunChar c with
    | false => rw [lastNameIn_cons_of_not hrun, lastNameIn_cons_of_not hrun]
    | true =>
      have hrest : ';' ∈ rest := by
        refine (List.mem_cons.mp h).resolve_left ?_
        rintro rfl
        rw [isRunChar_semicolon] at hrun
        cases hrun
      rw [lastNameIn_cons hrun, lastNameIn_cons hrun, ih hrest, ← List.cons_append,
        nameFrom_append h]

theorem nameAfterKeyword_append (h : ';' ∈ text) (more : List Char) :
    nameAfterKeyword (text ++ more) = nameAfterKeyword text := by
  have hhead : (text ++ more).head? = text.head? := by
    cases text with
    | nil => cases h
    | cons c rest => rfl
  rw [nameAfterKeyword, nameAfterKeyword, hhead, lastNameIn_append h]

/-- A directive does not look behind the next semicolon. -/
theorem nameAt_append (h : ';' ∈ text) (more : List Char) :
    nameAt (text ++ more) = nameAt text := by
  have hkeyword : ';' ∉ classKeyword := by decide
  rw [nameAt, nameAt, Text.chop?_append_of_mem h hkeyword]
  cases hchop : chop? classKeyword text with
  | none => rfl
  | some rest =>
    have hrest : ';' ∈ rest := by
      rw [Text.chop?_eq_some_iff.mp hchop] at h
      exact (List.mem_append.mp h).resolve_left hkeyword
    exact nameAfterKeyword_append hrest more

/-- More text behind a name that is ended leaves the name as it is. -/
theorem declaredNameIn_append (h : Terminated text) (hname : (declaredNameIn text).isSome)
    (more : List Char) : declaredNameIn (text ++ more) = declaredNameIn text := by
  rw [terminated_iff] at h
  -- place by place: the semicolon is behind all places up to the one that declares the name
  induction text with
  | nil => cases hname
  | cons c text ih =>
    have hmem : ';' ∈ c :: text := mem_of_semicolonBehind h hname
    have hhere := nameAt_append hmem more
    rw [List.cons_append] at hhere ⊢
    rw [declaredNameIn_cons, declaredNameIn_cons, hhere]
    rw [semicolonBehind] at h
    rw [declaredNameIn_cons] at hname
    cases hstart : nameAt (c :: text) with
    | some name => rw [Option.some_or, Option.some_or]
    | none =>
      rw [hstart, Option.isSome_none, if_neg Bool.false_ne_true] at h
      rw [hstart, Option.none_or] at hname
      rw [Option.none_or, Option.none_or, ih h hname]

theorem declaredName?_append {content internal : String} (h : Terminated content.toList)
    (hname : declaredName? content = some internal) (more : String) :
    declaredName? (content ++ more) = some internal := by
  have hsome : (declaredNameIn content.toList).isSome := by
    rw [← Option.isSome_map (f := String.ofList), ← declaredName?, hname]
    rfl
  rw [declaredName?, String.toList_append, declaredNameIn_append h hsome, ← declaredName?, hname]

end SmaliSieve.Smali
