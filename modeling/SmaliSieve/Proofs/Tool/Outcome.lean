/-
  SmaliSieve.Proofs.Tool.Outcome

  How decompiling an archive can end.

  It ends well exactly if the archive is a file, the tool ended by itself with code zero,
  and a folder then stands where the output was to go (`decompile_eq_ok_iff`). There are four
  other ways for it to end, in this order: there is no such file, the tool cannot be started,
  it does not report success, or it leaves no folder. Each is a fault of its own
  (`decompile_eq_error_iff`), and there is no further way (`fails_or_succeeds`).
-/

import SmaliSieve.Tool.Decompile

namespace SmaliSieve.Tool

variable (launch : Launcher) (binary : String) (archive : Path) (disk : Disk)

/-- What the tool leaves behind once it was run on the archive. -/
def runOn : Run := launch binary (arguments archive (outputFolder archive)) disk

/-- The archive was decompiled: it is a file, and the tool was started, has reported success
    and has left a folder where its output was to go. -/
structure Succeeds : Prop where
  file : disk.isFile archive = true
  ending : (runOn launch binary archive disk).ending = .ok (.exited 0)
  output : (runOn launch binary archive disk).disk.isFolder (outputFolder archive) = true

/-- What can go wrong, each with the fault that it is. -/
inductive Fails : Fault → Prop where
  | noArchive (file : disk.isFile archive = false) : Fails (.missing .archive archive)
  | notStarted {error : OsError} (file : disk.isFile archive = true)
      (ending : (runOn launch binary archive disk).ending = .error error) :
      Fails (.tool binary error.message)
  | unsuccessful {status : ExitStatus} (file : disk.isFile archive = true)
      (ending : (runOn launch binary archive disk).ending = .ok status)
      (status_ne : status ≠ .exited 0) : Fails (.tool binary s!"exited with {status.text}")
  | noOutput (file : disk.isFile archive = true)
      (ending : (runOn launch binary archive disk).ending = .ok (.exited 0))
      (output : (runOn launch binary archive disk).disk.isFolder (outputFolder archive) = false) :
      Fails (.missing .decompilerOutput (outputFolder archive))

variable {launch binary archive disk}

variable (launch binary archive disk) in
/-- One of the four goes wrong, or the archive is decompiled. -/
theorem fails_or_succeeds :
    (∃ fault, Fails launch binary archive disk fault) ∨ Succeeds launch binary archive disk := by
  cases hfile : disk.isFile archive with
  | false => exact .inl ⟨_, .noArchive hfile⟩
  | true =>
    cases hending : (runOn launch binary archive disk).ending with
    | error error => exact .inl ⟨_, .notStarted hfile hending⟩
    | ok status =>
      by_cases hstatus : status = .exited 0
      · subst hstatus
        cases houtput : (runOn launch binary archive disk).disk.isFolder (outputFolder archive) with
        | false => exact .inl ⟨_, .noOutput hfile hending houtput⟩
        | true => exact .inr ⟨hfile, hending, houtput⟩
      · exact .inl ⟨_, .unsuccessful hfile hending hstatus⟩

/-- Once the archive is there, all depends on the tool. -/
theorem decompile_of_isFile (h : disk.isFile archive = true) :
    (decompile launch binary archive disk).value =
      ⟨match (runOn launch binary archive disk).fault? binary (outputFolder archive) with
        | some fault => .error fault
        | none => .ok (outputFolder archive),
        (runOn launch binary archive disk).disk, (runOn launch binary archive disk).printed⟩ := by
  rw [decompile, if_pos h]
  rfl

theorem Succeeds.decompile_eq (h : Succeeds launch binary archive disk) :
    (decompile launch binary archive disk).value.result = .ok (outputFolder archive) := by
  rw [decompile_of_isFile h.file, Run.fault?, h.ending]
  simp [ExitStatus.succeeded, h.output]

theorem Fails.decompile_eq {fault : Fault} (h : Fails launch binary archive disk fault) :
    (decompile launch binary archive disk).value.result = .error fault := by
  cases h with
  | noArchive file =>
    rw [decompile, if_neg (by simp [file])]
  | notStarted file ending =>
    rw [decompile_of_isFile file, Run.fault?, ending]
  | unsuccessful file ending status_ne =>
    rw [decompile_of_isFile file, Run.fault?, ending]
    simp [ExitStatus.succeeded, status_ne]
  | noOutput file ending output =>
    rw [decompile_of_isFile file, Run.fault?, ending]
    simp [ExitStatus.succeeded, output]

theorem decompile_eq_error_iff {fault : Fault} :
    (decompile launch binary archive disk).value.result = .error fault ↔
      Fails launch binary archive disk fault := by
  constructor
  · intro h
    rcases fails_or_succeeds launch binary archive disk with ⟨other, hfails⟩ | hsucceeds
    · obtain rfl := Except.error.inj (hfails.decompile_eq.symm.trans h)
      exact hfails
    · cases hsucceeds.decompile_eq.symm.trans h
  · exact Fails.decompile_eq

theorem decompile_eq_ok_iff {folder : Path} :
    (decompile launch binary archive disk).value.result = .ok folder ↔
      Succeeds launch binary archive disk ∧ folder = outputFolder archive := by
  constructor
  · intro h
    rcases fails_or_succeeds launch binary archive disk with ⟨fault, hfails⟩ | hsucceeds
    · cases hfails.decompile_eq.symm.trans h
    · exact ⟨hsucceeds, Except.ok.inj (h.symm.trans hsucceeds.decompile_eq)⟩
  · rintro ⟨hsucceeds, rfl⟩
    exact hsucceeds.decompile_eq

end SmaliSieve.Tool
