/-
  SmaliSieve.Proofs.Smali.Sharing

  Methods that are looked for by several workers at once.

  `Job` is the state of such work: a tree with the classes that nobody has looked at yet and the
  methods that were found already. At any moment some worker makes a `Move`: it splits classes that
  are waiting into two parts, anywhere, or finds the methods of all of them, or puts the methods of
  two parts together that stand side by side. Which worker is next, and where, is left open.

    * No move changes what the job comes to (`Job.Step.outcome`), so that no run does
      (`Job.Run.outcome`), whatever was split and whichever part was done first.
    * Each move but a split brings the job nearer to its end (`Job.Step.pending`), and as long as
      it is not there some worker can go on (`Job.exists_step`), so that no run fails to end unless
      it splits without end.
-/

import SmaliSieve.Proofs.Smali.Extraction

namespace SmaliSieve.Smali

/-! ## Jobs -/

/-- What a worker can do. -/
inductive Move where
  | split
  | finish
  | join
  deriving DecidableEq, Repr

/-- The search for the methods of a class list, at some moment. -/
inductive Job where
  /-- Classes that are still to be searched. -/
  | waiting (records : List ClassRecord)
  /-- The methods of classes that were searched. -/
  | done (methods : List MethodRecord)
  /-- Two parts. The classes of the first stand in front of those of the second. -/
  | parts (first second : Job)

namespace Job

/-- A move of some worker, somewhere in the job. -/
inductive Step : Move → Job → Job → Prop where
  | split (count : Nat) (records : List ClassRecord) :
      Step .split (.waiting records)
        (.parts (.waiting (records.take count)) (.waiting (records.drop count)))
  | finish (records : List ClassRecord) :
      Step .finish (.waiting records) (.done (methodsOfAll records))
  | join (first second : List MethodRecord) :
      Step .join (.parts (.done first) (.done second)) (.done (first ++ second))
  | first {move : Move} {job next : Job} (other : Job) :
      Step move job next → Step move (.parts job other) (.parts next other)
  | second {move : Move} {job next : Job} (other : Job) :
      Step move job next → Step move (.parts other job) (.parts other next)

/-- Some moves, one after the other. -/
inductive Run : List Move → Job → Job → Prop where
  | nil (job : Job) : Run [] job job
  | cons {move : Move} {moves : List Move} {job next last : Job} :
      Step move job next → Run moves next last → Run (move :: moves) job last

/-- The methods that the job comes to. -/
def outcome : Job → List MethodRecord
  | waiting records => methodsOfAll records
  | done methods => methods
  | parts first second => first.outcome ++ second.outcome

/-- The number of moves to the end of the job, if nothing is split any more. -/
def pending : Job → Nat
  | waiting _ => 1
  | done _ => 0
  | parts first second => first.pending + second.pending + 1

/-! ## One move -/

theorem Step.outcome {move : Move} {job next : Job} (h : Step move job next) :
    next.outcome = job.outcome := by
  induction h with
  | split count records =>
    show methodsOfAll (records.take count) ++ methodsOfAll (records.drop count) = _
    rw [← methodsOfAll_append, List.take_append_drop]
    rfl
  | finish records => rfl
  | join first second => rfl
  | first other _ ih => rw [Job.outcome, ih, Job.outcome]
  | second other _ ih => rw [Job.outcome, ih, Job.outcome]

/-- A split makes two parts to be searched, and to be put together, out of one. Any other move
    leaves one move less to be made. -/
theorem Step.pending {move : Move} {job next : Job} (h : Step move job next) :
    next.pending + 1 = job.pending + 3 * [move].count .split := by
  induction h with
  | split count records => rfl
  | finish records => rfl
  | join first second => rfl
  | first other _ ih =>
    rw [Job.pending, Job.pending]
    omega
  | second other _ ih =>
    rw [Job.pending, Job.pending]
    omega

/-- A job that is not done can go on without another split. -/
theorem exists_step (job : Job) :
    (∃ methods, job = .done methods) ∨ ∃ move next, move ≠ .split ∧ Step move job next := by
  induction job with
  | waiting records => exact .inr ⟨.finish, _, by decide, .finish records⟩
  | done methods => exact .inl ⟨methods, rfl⟩
  | parts first second ihf ihs =>
    refine .inr ?_
    rcases ihf with ⟨front, rfl⟩ | ⟨move, next, hmove, hstep⟩
    · rcases ihs with ⟨back, rfl⟩ | ⟨move, next, hmove, hstep⟩
      · exact ⟨.join, _, by decide, .join front back⟩
      · exact ⟨move, _, hmove, .second _ hstep⟩
    · exact ⟨move, _, hmove, .first second hstep⟩

/-- No move is pending exactly if all methods are put together. -/
theorem pending_eq_zero_iff {job : Job} : job.pending = 0 ↔ job = .done job.outcome := by
  cases job with
  | waiting records => simp [pending]
  | done methods => exact iff_of_true rfl rfl
  | parts first second => simp [pending]

/-! ## All moves -/

variable {moves : List Move} {job last : Job}

theorem Run.outcome (h : Run moves job last) : last.outcome = job.outcome := by
  induction h with
  | nil job => rfl
  | cons hstep _ ih => rw [ih, hstep.outcome]

theorem Run.pending (h : Run moves job last) :
    last.pending + moves.length = job.pending + 3 * moves.count .split := by
  induction h with
  | nil job => rfl
  | cons hstep _ ih =>
    have hfirst := hstep.pending
    rw [List.length_cons, List.count_cons]
    rw [List.count_singleton] at hfirst
    omega

end Job

/-! ## Class lists that are shared out -/

/-- The class list as it is split before anything is searched. -/
def Split.job : Split → List ClassRecord → Job
  | whole, records => .waiting records
  | cut count left right, records =>
    .parts (left.job (records.take count)) (right.job (records.drop count))

theorem Split.outcome_job (split : Split) (records : List ClassRecord) :
    (split.job records).outcome = split.methodsOfAll records := by
  induction split generalizing records with
  | whole => rfl
  | cut count left right ihl ihr => rw [Split.job, Job.outcome, ihl, ihr, Split.methodsOfAll]

/-- Extraction in parallel gives the same methods in the same order as extraction in one go, and
    tells the same about them. It does so however the class list is split, and whatever the workers
    do: each run, in which parts may be split further and are done in any order, can go on until no
    move is pending, and then it has put these methods together. Without a split, each move is one
    of those that are pending. -/
theorem extractMethods_parallel (records : List ClassRecord) :
    extractLogged true records = extractLogged false records ∧
      extractMethods true records = extractMethods false records ∧
      ∀ split : Split,
        split.methodsOfAll records = extractMethods false records ∧
          ∀ (moves : List Move) (job : Job), Job.Run moves (split.job records) job →
            (job.pending = 0 ↔ job = .done (extractMethods false records)) ∧
              (job.pending ≠ 0 → ∃ move next, move ≠ .split ∧ Job.Step move job next) ∧
              job.pending + moves.length =
                (split.job records).pending + 3 * moves.count .split := by
  have hmethods : extractMethods true records = extractMethods false records := by
    rw [extractMethods_eq, extractMethods_eq]
  refine ⟨by rw [extractLogged, extractLogged, hmethods], hmethods, fun split => ?_⟩
  have hsplit : split.methodsOfAll records = extractMethods false records :=
    split.methodsOfAll_eq records
  refine ⟨hsplit, fun moves job hrun => ⟨?_, fun hpending => ?_, hrun.pending⟩⟩
  · rw [Job.pending_eq_zero_iff, hrun.outcome, split.outcome_job, hsplit]
  · exact job.exists_step.resolve_left fun ⟨methods, hdone⟩ => hpending (by rw [hdone]; rfl)

/-- Two classes with a method each, and one with none. -/
def threeClasses : List ClassRecord :=
  [⟨"a.A", ".method a()V\n.end method"⟩, ⟨"b.B", ""⟩, ⟨"c.C", ".method c()V\n.end method"⟩]

/-- At first there is a move to be made. When the last class is split off and searched first, and
    the others together, all methods are found in their order. -/
theorem extractMethods_parallel_threeClasses :
    let job := Split.whole.job threeClasses
    let front := threeClasses.take 2
    let back := threeClasses.drop 2
    let last := Job.done (methodsOfAll front ++ methodsOfAll back)
    (job.pending ≠ 0 ∧ ∃ move next, move ≠ .split ∧ Job.Step move job next) ∧
      Job.Run [.split, .finish, .finish, .join] job last ∧
      last.pending = 0 ∧ last = .done (extractMethods false threeClasses) := by
  intro job front back last
  have hshared := ((extractMethods_parallel threeClasses).2.2 .whole).2
  have hpending : job.pending ≠ 0 := by decide
  have hrun : Job.Run [.split, .finish, .finish, .join] job last :=
    .cons (.split 2 threeClasses) <| .cons (.second _ (.finish back)) <|
      .cons (.first _ (.finish front)) <| .cons (.join _ _) (.nil last)
  exact ⟨⟨hpending, (hshared [] job (.nil job)).2.1 hpending⟩, hrun, rfl,
    (hshared _ last hrun).1.mp rfl⟩

end SmaliSieve.Smali
