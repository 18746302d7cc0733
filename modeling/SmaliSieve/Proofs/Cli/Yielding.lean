/-
  SmaliSieve.Proofs.Cli.Yielding

  What a computation in a run comes to.

  `Yields` says that a computation gets to its end, with which result, on which disk, and
  what it has printed by then. Of two computations one after the other both get to their end,
  or the whole does not (`yields_bind_iff`), so a run that succeeded can be taken apart into
  its steps. Many steps leave the disk alone (`Keeps`) or print nothing (`Mute`), and this
  also holds where they fail; a step that does neither `Observes`. A step that goes the same
  way on two disks, and leaves both alone, is `Blind` to what they differ in.
-/

import SmaliSieve.Cli.Session

namespace SmaliSieve.Cli.Session

variable {α β : Type}

/-! ## Computations that get to their end -/

/-- Started on the disk `before`, the computation gets to its end with the result `a`. By
    then the disk is `after`, and `printed` was printed. -/
structure Yields (session : Session α) (before : Disk) (a : α) (after : Disk)
    (printed : List Piece) : Prop where
  result : (session before).result = .ok a
  disk : (session before).disk = after
  printed : (session before).printed = printed

variable {before after : Disk} {printed : List Piece}

theorem yields_of_ok {session : Session α} {a : α} (h : (session before).result = .ok a) :
    session.Yields before a (session before).disk (session before).printed :=
  ⟨h, rfl, rfl⟩

theorem result_eq_of_toOption {session : Session α} {a : α}
    (h : (session before).result.toOption = some a) : (session before).result = .ok a := by
  cases hresult : (session before).result with
  | error failure =>
    rw [hresult] at h
    cases h
  | ok b =>
    rw [hresult] at h
    exact congrArg Except.ok (Option.some.inj h)

theorem Yields.eq_of_result {session : Session α} {a b : α}
    (h : session.Yields before a after printed) (hb : (session before).result = .ok b) : b = a :=
  Except.ok.inj (hb.symm.trans h.result)

theorem bind_of_ok {first : Session α} {next : α → Session β} {a : α}
    (h : (first before).result = .ok a) :
    (first >>= next) before =
      ⟨(next a (first before).disk).result, (next a (first before).disk).disk,
        (first before).printed ++ (next a (first before).disk).printed,
        (first before).remarks ++ (next a (first before).disk).remarks⟩ := by
  rw [bind_def, andThen, h]

theorem bind_of_error {first : Session α} {next : α → Session β} {failure : Failure}
    (h : (first before).result = .error failure) :
    (first >>= next) before =
      ⟨.error failure, (first before).disk, (first before).printed, (first before).remarks⟩ := by
  rw [bind_def, andThen, h]

/-- Both computations get to their end, the second one on the disk that the first one
    leaves. -/
theorem yields_bind_iff {first : Session α} {next : α → Session β} {b : β} :
    (first >>= next).Yields before b after printed ↔
      ∃ a middle shown more, first.Yields before a middle shown ∧
        shown ++ more = printed ∧ (next a).Yields middle b after more := by
  constructor
  · rintro ⟨hresult, hdisk, hprinted⟩
    cases hfirst : (first before).result with
    | error failure =>
      rw [bind_of_error hfirst] at hresult
      cases hresult
    | ok a =>
      rw [bind_of_ok hfirst] at hresult hdisk hprinted
      exact ⟨a, _, _, _, yields_of_ok hfirst, hprinted, ⟨hresult, hdisk, rfl⟩⟩
  · rintro ⟨a, middle, shown, more, ⟨hfirst, rfl, rfl⟩, rfl, ⟨hnext, rfl, rfl⟩⟩
    have hrun : (first >>= next) before = _ := bind_of_ok hfirst
    exact ⟨by rw [hrun]; exact hnext, by rw [hrun], by rw [hrun]⟩

theorem Yields.bind {first : Session α} {next : α → Session β} {a : α} {b : β}
    {middle : Disk} {shown more : List Piece} (hfirst : first.Yields before a middle shown)
    (hnext : (next a).Yields middle b after more) :
    (first >>= next).Yields before b after (shown ++ more) :=
  yields_bind_iff.mpr ⟨a, middle, shown, more, hfirst, rfl, hnext⟩

/-! ## Computations that leave the disk alone or print nothing -/

/-- The disk is left alone. -/
def Keeps (session : Session α) : Prop := ∀ disk, (session disk).disk = disk

/-- Nothing is printed. -/
def Mute (session : Session α) : Prop := ∀ disk, (session disk).printed = []

/-- The disk is left alone, and nothing is printed. -/
structure Observes (session : Session α) : Prop where
  keeps : session.Keeps
  mute : session.Mute

theorem Yields.disk_eq {session : Session α} {a : α} (h : session.Yields before a after printed)
    (keeps : session.Keeps) : after = before :=
  h.disk.symm.trans (keeps before)

theorem Yields.printed_eq {session : Session α} {a : α}
    (h : session.Yields before a after printed) (mute : session.Mute) : printed = [] :=
  h.printed.symm.trans (mute before)

theorem Observes.yields {session : Session α} (h : session.Observes) {disk : Disk} {a : α}
    (hresult : (session disk).result = .ok a) : session.Yields disk a disk [] :=
  ⟨hresult, h.keeps disk, h.mute disk⟩

/-- A step that only looks comes to its result, on the disk that it was started on. -/
theorem Observes.yields_iff {session : Session α} (h : session.Observes) {a b : α}
    (hresult : (session before).result = .ok a) :
    session.Yields before b after printed ↔ a = b ∧ before = after ∧ [] = printed := by
  constructor
  · intro hyields
    exact ⟨hyields.eq_of_result hresult, (hyields.disk_eq h.keeps).symm,
      (hyields.printed_eq h.mute).symm⟩
  · rintro ⟨rfl, rfl, rfl⟩
    exact h.yields hresult

theorem Keeps.bind {first : Session α} {next : α → Session β} (hfirst : first.Keeps)
    (hnext : ∀ a, (next a).Keeps) : (first >>= next).Keeps := by
  intro disk
  cases hresult : (first disk).result with
  | error failure =>
    rw [bind_of_error hresult]
    exact hfirst disk
  | ok a =>
    rw [bind_of_ok hresult]
    exact (hnext a _).trans (hfirst disk)

/-- Behind a step that leaves the disk alone, the next one starts on the same disk. -/
theorem Keeps.outcome_bind {first : Session α} {next : α → Session β} (h : first.Keeps) {a : α}
    (hresult : (first before).result = .ok a) :
    ((first >>= next) before).result = (next a before).result ∧
      ((first >>= next) before).disk = (next a before).disk := by
  have hdisk : (first before).disk = before := h before
  rw [bind_of_ok hresult, hdisk]
  exact ⟨rfl, rfl⟩

theorem Keeps.outcome_bind_of_error {first : Session α} {next : α → Session β} (h : first.Keeps)
    {failure : Failure} (hresult : (first before).result = .error failure) :
    ((first >>= next) before).result = .error failure ∧
      ((first >>= next) before).disk = before := by
  rw [bind_of_error hresult]
  exact ⟨rfl, h before⟩

/-- What comes behind and leaves the disk alone does not matter for the disk. -/
theorem disk_bind_of_keeps {first : Session α} {next : α → Session β}
    (hnext : ∀ a, (next a).Keeps) : ((first >>= next) before).disk = (first before).disk := by
  cases hresult : (first before).result with
  | error failure => rw [bind_of_error hresult]
  | ok a =>
    rw [bind_of_ok hresult]
    exact hnext a _

theorem printed_bind {first : Session α} {next : α → Session β}
    (hfirst : (first before).printed = [])
    (hnext : ∀ a, (first before).result = .ok a → (next a (first before).disk).printed = []) :
    ((first >>= next) before).printed = [] := by
  cases hresult : (first before).result with
  | error failure =>
    rw [bind_of_error hresult]
    exact hfirst
  | ok a =>
    rw [bind_of_ok hresult]
    show (first before).printed ++ (next a (first before).disk).printed = []
    rw [hfirst, hnext a hresult, List.append_nil]

theorem Mute.bind {first : Session α} {next : α → Session β} (hfirst : first.Mute)
    (hnext : ∀ a, (next a).Mute) : (first >>= next).Mute :=
  fun before => printed_bind (hfirst before) fun a _ => hnext a _

theorem Observes.bind {first : Session α} {next : α → Session β} (hfirst : first.Observes)
    (hnext : ∀ a, (next a).Observes) : (first >>= next).Observes :=
  ⟨hfirst.keeps.bind fun a => (hnext a).keeps, hfirst.mute.bind fun a => (hnext a).mute⟩

/-! ## Computations that do not fail -/

/-- The computation gets to its end on every disk. -/
def Completes (session : Session α) : Prop := ∀ disk, ∃ a, (session disk).result = .ok a

theorem Completes.bind {first : Session α} {next : α → Session β} (hfirst : first.Completes)
    (hnext : ∀ a, (next a).Completes) : (first >>= next).Completes := by
  intro disk
  obtain ⟨a, hresult⟩ := hfirst disk
  rw [bind_of_ok hresult]
  exact hnext a _

theorem completes_pure (a : α) : (pure a : Session α).Completes := fun _ => ⟨a, rfl⟩

theorem completes_disk : disk.Completes := fun disk => ⟨disk, rfl⟩

theorem completes_tell (logged : Log.Logged α) : (tell logged).Completes :=
  fun _ => ⟨logged.value, rfl⟩

theorem completes_setDisk (disk : Disk) : (setDisk disk).Completes := fun _ => ⟨(), rfl⟩

theorem completes_print (piece : Piece) : (print piece).Completes := fun _ => ⟨(), rfl⟩

/-! ## The parts that computations are made of -/

theorem observes_pure (a : α) : (pure a : Session α).Observes := ⟨fun _ => rfl, fun _ => rfl⟩

theorem observes_disk : disk.Observes := ⟨fun _ => rfl, fun _ => rfl⟩

theorem observes_say (remark : Remark) : (say remark).Observes := ⟨fun _ => rfl, fun _ => rfl⟩

theorem observes_tell (logged : Log.Logged α) : (tell logged).Observes :=
  ⟨fun _ => rfl, fun _ => rfl⟩

theorem observes_fail (failure : Failure) : (fail failure : Session α).Observes :=
  ⟨fun _ => rfl, fun _ => rfl⟩

theorem observes_orFail (result : Except Fault α) : (orFail result).Observes := by
  cases result with
  | error fault => exact observes_fail _
  | ok a => exact observes_pure a

theorem mute_setDisk (disk : Disk) : (setDisk disk).Mute := fun _ => rfl

@[simp] theorem yields_pure_iff {a b : α} :
    (pure a : Session α).Yields before b after printed ↔
      a = b ∧ before = after ∧ [] = printed :=
  (observes_pure a).yields_iff rfl

@[simp] theorem yields_disk_iff {found : Disk} :
    disk.Yields before found after printed ↔
      before = found ∧ before = after ∧ [] = printed :=
  observes_disk.yields_iff rfl

@[simp] theorem yields_tell_iff {logged : Log.Logged α} {a : α} :
    (tell logged).Yields before a after printed ↔
      logged.value = a ∧ before = after ∧ [] = printed :=
  (observes_tell logged).yields_iff rfl

@[simp] theorem yields_setDisk_iff {found : Disk} {u : Unit} :
    (setDisk found).Yields before u after printed ↔ found = after ∧ [] = printed := by
  constructor
  · rintro ⟨-, hdisk, hprinted⟩
    exact ⟨hdisk, hprinted⟩
  · rintro ⟨rfl, rfl⟩
    exact ⟨rfl, rfl, rfl⟩

@[simp] theorem yields_print_iff {piece : Piece} {u : Unit} :
    (print piece).Yields before u after printed ↔ before = after ∧ [piece] = printed := by
  constructor
  · rintro ⟨-, hdisk, hprinted⟩
    exact ⟨hdisk, hprinted⟩
  · rintro ⟨rfl, rfl⟩
    exact ⟨rfl, rfl, rfl⟩

@[simp] theorem yields_orFail_iff {result : Except Fault α} {a : α} :
    (orFail result).Yields before a after printed ↔
      result = .ok a ∧ before = after ∧ [] = printed := by
  cases result with
  | error fault =>
    constructor
    · rintro ⟨hresult, -, -⟩
      cases hresult
    · rintro ⟨hresult, -, -⟩
      cases hresult
  | ok b => rw [Except.ok.injEq]; exact yields_pure_iff

/-! ## Laws -/

theorem pure_bind_eq (a : α) (next : α → Session β) : (pure a >>= next) = next a := rfl

theorem bind_bind {γ : Type} (first : Session α) (next : α → Session β) (last : β → Session γ) :
    (first >>= next) >>= last = first >>= fun a => next a >>= last := by
  funext before
  cases hfirst : (first before).result with
  | error failure =>
    have hboth : ((first >>= next) before).result = .error failure := by
      rw [bind_of_error hfirst]
    rw [bind_of_error hboth, bind_of_error hfirst, bind_of_error hfirst]
  | ok a =>
    rw [bind_of_ok hfirst]
    cases hnext : (next a (first before).disk).result with
    | error failure =>
      have hboth : ((first >>= next) before).result = .error failure := by
        rw [bind_of_ok hfirst, hnext]
      rw [bind_of_error hboth, bind_of_error hnext, bind_of_ok hfirst]
    | ok b =>
      have hboth : ((first >>= next) before).result = .ok b := by
        rw [bind_of_ok hfirst, hnext]
      rw [bind_of_ok hboth, bind_of_ok hnext, bind_of_ok hfirst]
      simp

/-! ## Computations that do not tell two disks apart -/

/-- The computation leaves both disks alone and does the same on both: it comes to the same
    result, prints the same and tells the same. -/
structure Blind (session : Session α) (disk other : Disk) : Prop where
  result : (session other).result = (session disk).result
  printed : (session other).printed = (session disk).printed
  remarks : (session other).remarks = (session disk).remarks
  keeps : (session disk).disk = disk
  keeps_other : (session other).disk = other

variable {disk other : Disk}

theorem Blind.bind {first : Session α} {next : α → Session β} (hfirst : first.Blind disk other)
    (hnext : ∀ a, (first disk).result = .ok a → (next a).Blind disk other) :
    (first >>= next).Blind disk other := by
  obtain ⟨hresult, hprinted, hremarks, hkeeps, hkeeps'⟩ := hfirst
  cases h : (first disk).result with
  | error failure =>
    -- then it fails on the other disk too, for the same reason
    have h' := hresult.trans h
    constructor <;> simp [bind_of_error h, bind_of_error h', *]
  | ok a =>
    have h' := hresult.trans h
    obtain ⟨hresult', hprinted', hremarks', hdisk, hother⟩ := hnext a h
    constructor <;> simp [bind_of_ok h, bind_of_ok h', *]

end SmaliSieve.Cli.Session
