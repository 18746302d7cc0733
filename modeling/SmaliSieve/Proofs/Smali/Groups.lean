/-
  SmaliSieve.Proofs.Smali.Groups

  What going through the files one by one comes to.

  Once files are added to the groups, the names stand there in the order of first declaration,
  each once, and under each name stand the contents of the files that declare it
  (`Groups.Holds`). A file more keeps that (`Groups.Holds.add`), so it holds of all files
  (`holds_collected`). As each name has a group, none is passed over in the end, and the records
  are those of `groupRecords` (`aggregate_eq`).
-/

import SmaliSieve.Proofs.Order.Stable
import SmaliSieve.Smali.Aggregate

namespace SmaliSieve.Smali

/-! ## Records by what the files declare -/

/-- A file together with the internal name of the class it declares. -/
structure Declaration where
  internal : String
  file : SourceFile
  deriving DecidableEq, Repr

/-- The declaration that a file makes, if it makes one. -/
def declarationOf? (file : SourceFile) : Option Declaration :=
  (declaredName? file.content).map fun internal => ⟨internal, file⟩

/-- The declarations of `files`, in the order of the files. -/
def declarations (files : List SourceFile) : List Declaration :=
  (sortFiles files).filterMap declarationOf?

/-- The contents of the files that declare `internal`. -/
def contentsOf (internal : String) (declarations : List Declaration) : List String :=
  (declarations.filter (·.internal = internal)).map (·.file.content)

/-- The record of the class `internal`. -/
def recordOf (declarations : List Declaration) (internal : String) : ClassRecord :=
  ⟨canonicalName internal, joinContents (contentsOf internal declarations)⟩

/-- One record for each declared class, in the order of first declaration. -/
def groupRecords (declarations : List Declaration) : List ClassRecord :=
  (declarations.map (·.internal)).eraseDups.map (recordOf declarations)

/-- The files that declare no class, in sorted order. -/
def undeclared (files : List SourceFile) : List SourceFile :=
  (sortFiles files).filter fun file => (declaredName? file.content).isNone

namespace Groups

/-! ## Groups by name -/

theorem lookup_push (groups : Groups) (internal content name : String) :
    (groups.push internal content).parts.lookup name =
      (groups.parts.lookup name).map fun contents =>
        if name = internal then contents ++ [content] else contents := by
  rw [push]
  induction groups.parts with
  | nil => rfl
  | cons part rest ih =>
    obtain ⟨key, contents⟩ := part
    by_cases hname : name = key
    · subst hname
      by_cases hkey : name = internal <;> simp [hkey]
    · have hbeq : (name == key) = false := by simpa using hname
      by_cases hkey : key = internal
      · subst hkey
        simp [List.lookup_cons, hbeq, ih]
      · simp [List.lookup_cons, hbeq, hkey, ih]

theorem lookup_start (groups : Groups) (internal content name : String) :
    (groups.start internal content).parts.lookup name =
      if name = internal then some [content] else groups.parts.lookup name := by
  by_cases hname : name = internal
  · simp [start, hname]
  · have hbeq : (name == internal) = false := by simpa using hname
    simp [start, List.lookup_cons, hbeq, hname]

theorem lookup_filter_ne {internal name : String} (hne : name ≠ internal)
    (parts : List (String × List String)) :
    (parts.filter (·.1 ≠ internal)).lookup name = parts.lookup name := by
  induction parts with
  | nil => rfl
  | cons part rest ih =>
    obtain ⟨key, contents⟩ := part
    by_cases hkey : key = internal
    · have hbeq : (name == key) = false := by simpa [hkey] using hne
      rw [List.filter_cons_of_neg (by simpa using hkey), ih, List.lookup_cons, hbeq]
    · rw [List.filter_cons_of_pos (by simpa using hkey), List.lookup_cons, List.lookup_cons, ih]

/-! ## File by file -/

/-- What the groups hold once the files of `done` are added. -/
structure Holds (groups : Groups) (done : List SourceFile) : Prop where
  /-- Each name stands there once, where it came up first. -/
  order : groups.order = ((done.filterMap declarationOf?).map (·.internal)).eraseDups
  /-- The names with a group are those that came up, and the group has the contents of the
      files in their order. -/
  parts : ∀ internal, groups.parts.lookup internal =
    if internal ∈ groups.order then some (contentsOf internal (done.filterMap declarationOf?))
    else none
  skipped : groups.skipped = (done.filter fun file => (declaredName? file.content).isNone).length

theorem holds_empty : empty.Holds [] := ⟨rfl, fun _ => rfl, rfl⟩

theorem eraseDups_concat (names : List String) (name : String) :
    (names ++ [name]).eraseDups =
      if name ∈ names then names.eraseDups else names.eraseDups ++ [name] := by
  rw [List.eraseDups_append]
  by_cases h : name ∈ names <;> simp [List.removeAll, List.eraseDups_cons, h]

theorem contentsOf_concat (internal : String) (declarations : List Declaration)
    (last : Declaration) :
    contentsOf internal (declarations ++ [last]) =
      if last.internal = internal then contentsOf internal declarations ++ [last.file.content]
      else contentsOf internal declarations := by
  by_cases h : last.internal = internal <;> simp [contentsOf, h]

variable {groups : Groups} {done : List SourceFile}

/-- A name came up exactly if it is in the list of names. -/
theorem Holds.mem_order (h : groups.Holds done) {internal : String} :
    internal ∈ groups.order ↔ internal ∈ (done.filterMap declarationOf?).map (·.internal) := by
  rw [h.order, List.mem_eraseDups]

/-- A file more goes to the group of its class, which is there exactly if the name came up
    before. -/
theorem Holds.add (h : groups.Holds done) (file : SourceFile) :
    (groups.add file).value.Holds (done ++ [file]) := by
  rw [Groups.add]
  cases hname : declaredName? file.content with
  | none =>
    have hnone : declarationOf? file = none := by rw [declarationOf?, hname]; rfl
    refine ⟨?_, fun internal => ?_, ?_⟩
    · simpa [hnone] using h.order
    · simpa [hnone] using h.parts internal
    · simpa [hname] using h.skipped
  | some internal =>
    have hsome : declarationOf? file = some ⟨internal, file⟩ := by rw [declarationOf?, hname]; rfl
    have hdone : (done ++ [file]).filterMap declarationOf? =
        done.filterMap declarationOf? ++ [⟨internal, file⟩] := by simp [hsome]
    have hskipped : groups.skipped =
        ((done ++ [file]).filter fun file => (declaredName? file.content).isNone).length := by
      simpa [hname] using h.skipped
    dsimp only
    by_cases hmem : internal ∈ groups.order
    · -- the class has a group, and its name is in the list
      rw [h.parts internal, if_pos hmem]
      refine ⟨?_, fun name => ?_, hskipped⟩
      · rw [hdone, List.map_append, List.map_singleton, eraseDups_concat,
          if_pos (h.mem_order.mp hmem)]
        exact h.order
      · show (groups.push internal file.content).parts.lookup name =
          if name ∈ groups.order then _ else none
        rw [lookup_push, h.parts, hdone, contentsOf_concat]
        by_cases hsame : name = internal
        · subst hsame
          simp [hmem]
        · by_cases hname' : name ∈ groups.order <;> simp [hname', hsame, Ne.symm hsame]
    · -- the class comes up for the first time
      rw [h.parts internal, if_neg hmem]
      have hnew : internal ∉ (done.filterMap declarationOf?).map (·.internal) :=
        fun h' => hmem (h.mem_order.mpr h')
      refine ⟨?_, fun name => ?_, hskipped⟩
      · rw [hdone, List.map_append, List.map_singleton, eraseDups_concat, if_neg hnew, ← h.order]
        rfl
      · show (groups.start internal file.content).parts.lookup name =
          if name ∈ groups.order ++ [internal] then _ else none
        rw [lookup_start, h.parts, hdone, contentsOf_concat]
        by_cases hsame : name = internal
        · subst hsame
          have hnothing : contentsOf name (done.filterMap declarationOf?) = [] := by
            rw [contentsOf, List.map_eq_nil_iff, List.filter_eq_nil_iff]
            intro declaration hdeclaration hinternal
            exact hnew (List.mem_map.mpr ⟨declaration, hdeclaration, by simpa using hinternal⟩)
          simp [hnothing]
        · by_cases hname' : name ∈ groups.order <;> simp [hname', hsame, Ne.symm hsame]

/-- All files that are added one after the other are held. -/
theorem Holds.addAll (h : groups.Holds done) (files : List SourceFile) :
    (files.foldlM Groups.add groups).value.Holds (done ++ files) := by
  induction files generalizing groups done with
  | nil => rwa [List.append_nil]
  | cons file rest ih =>
    rw [List.foldlM_cons, Log.Logged.value_bind, List.append_cons]
    exact ih (h.add file)

/-- Each file without a class directive is told, in its turn. -/
theorem events_addAll (groups : Groups) (files : List SourceFile) :
    (files.foldlM Groups.add groups).events =
      (files.filter fun file => (declaredName? file.content).isNone).map (.noDirective ·.path) := by
  induction files generalizing groups with
  | nil => rfl
  | cons file rest ih =>
    rw [List.foldlM_cons, Log.Logged.events_bind, ih, Groups.add]
    cases hname : declaredName? file.content with
    | none => rw [List.filter_cons_of_pos (by rw [hname]; rfl)]; rfl
    | some internal =>
      rw [List.filter_cons_of_neg (by rw [hname]; exact Bool.false_ne_true)]
      dsimp only
      split <;> rfl

/-! ## In the end -/

/-- Where each of the names has a group and none comes up twice, none is passed over. -/
theorem drain_eq_map {contents : String → List String} {order : List String}
    {parts : List (String × List String)} (distinct : order.Nodup)
    (h : ∀ internal ∈ order, parts.lookup internal = some (contents internal)) :
    drain parts order = order.map fun internal =>
      ⟨canonicalName internal, joinContents (contents internal)⟩ := by
  induction order generalizing parts with
  | nil => rfl
  | cons internal rest ih =>
    obtain ⟨hnot, hrest⟩ := List.nodup_cons.mp distinct
    obtain ⟨hfirst, hmore⟩ := List.forall_mem_cons.mp h
    rw [drain, hfirst, List.map_cons]
    dsimp only
    rw [ih hrest]
    -- taking a group away leaves those of the other names
    intro name hname
    have hne : name ≠ internal := fun hsame => hnot (hsame ▸ hname)
    rw [lookup_filter_ne hne, hmore name hname]

theorem Holds.drain_eq (h : groups.Holds done) :
    drain groups.parts groups.order = groupRecords (done.filterMap declarationOf?) := by
  have distinct : groups.order.Nodup := h.order ▸ Order.nodup_eraseDups _
  rw [drain_eq_map distinct fun internal hmem => (h.parts internal).trans (if_pos hmem), h.order]
  rfl

end Groups

theorem holds_collected (files : List SourceFile) :
    ((sortFiles files).foldlM Groups.add .empty).value.Holds (sortFiles files) :=
  Groups.holds_empty.addAll (sortFiles files)

/-- The classes are the records of what the files declare, by name. -/
theorem aggregate_eq (files : List SourceFile) :
    aggregate files =
      (groupRecords (declarations files)).mergeSort fun a b => (ClassRecord.order a b).isLE := by
  show (Groups.drain _ _).mergeSort _ = _
  rw [(holds_collected files).drain_eq]
  rfl

/-- What is told while files become classes: the files without a class directive one by one,
    then how many they are, if there are any, and the number of classes. -/
theorem events_aggregateLogged (files : List SourceFile) :
    (aggregateLogged files).events =
      (undeclared files).map (Log.Event.noDirective ·.path)
        ++ (if (undeclared files).length = 0 then [] else [.skipped (undeclared files).length])
        ++ [.classes (aggregate files).length]
        ++ (if (aggregate files).isEmpty then [.noClasses] else []) := by
  have hevents : (aggregateLogged files).events =
      ((sortFiles files).foldlM Groups.add .empty).events ++
        ((if ((sortFiles files).foldlM Groups.add .empty).value.skipped = 0 then []
            else [.skipped ((sortFiles files).foldlM Groups.add .empty).value.skipped]) ++
          ([.classes (aggregate files).length] ++
            ((if (aggregate files).isEmpty then [.noClasses] else []) ++ []))) := rfl
  rw [hevents, Groups.events_addAll, (holds_collected files).skipped, undeclared]
  simp only [List.append_assoc, List.append_nil]

end SmaliSieve.Smali
