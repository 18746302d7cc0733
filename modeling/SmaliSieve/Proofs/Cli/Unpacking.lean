/-
  SmaliSieve.Proofs.Cli.Unpacking

  A run up to the decompiled tree, and what it finds out there.

  First the settings are found and the archive, if there is one, is decompiled (`unpack`).
  What comes of that is what the decompiler leaves (`unpack_of_ok`, `unpack_ok`). Then, unless
  the archive is removed first, the tree is explored (`survey_eq`).
-/

import SmaliSieve.Proofs.App.Effect
import SmaliSieve.Proofs.Cli.Stages

namespace SmaliSieve

namespace Cli

open Session

/-! ## The steps up to the tree -/

variable (host : Host) (arguments : Arguments)

/-- The steps of a run up to the decompiled tree. -/
def unpack (path : Path) : Session (Settings × App) := do
  Session.say (.event (.started Report.version))
  let settings ← settle arguments
  let app ← open? path settings.parallel
  let app ← decompile host settings app
  return (settings, app)

/-- What a run finds out about a tree. -/
def explore (settings : Settings) (app : App) : Session Findings := do
  let app ← readTree settings app
  listAll host arguments settings app
  let (app, filtered) ← sift arguments settings app
  return ⟨settings, app, filtered⟩

theorem prepare_eq (path : Path) :
    prepare host arguments path = unpack host arguments path >>= fun unpacked =>
      dropArchive host arguments unpacked.2 >>= fun _ =>
        readTree unpacked.1 unpacked.2 >>= fun app => pure (unpacked.1, app) := by
  simp only [prepare, unpack, bind_bind, pure_bind_eq]

theorem survey_eq (path : Path) :
    survey host arguments path = unpack host arguments path >>= fun unpacked =>
      dropArchive host arguments unpacked.2 >>= fun _ =>
        explore host arguments unpacked.1 unpacked.2 := by
  simp only [survey, prepare, unpack, explore, bind_bind, pure_bind_eq]

/-! ## What they come to -/

variable (path : Path) (disk : Disk)

/-- The application that a path leads to. -/
def opened (disk : Disk) (path : Path) (parallel : Bool) : App :=
  if disk.isFolder path then .ofFolder path parallel else .ofArchive path parallel

theorem placed_opened (parallel : Bool) : (opened disk path parallel).Placed := by
  intro archive harchive
  rw [opened] at harchive ⊢
  split at harchive
  · cases harchive
  · next hfolder =>
    obtain rfl := Option.some.inj harchive
    rw [if_neg hfolder]
    rfl

theorem archive_opened {parallel : Bool} {archive : Path}
    (h : (opened disk path parallel).archive = some archive) :
    archive = path ∧ disk.isFolder path = false := by
  rw [opened] at h
  split at h
  · cases h
  · next hfolder => exact ⟨(Option.some.inj h).symm, Bool.eq_false_iff.mpr hfolder⟩

theorem folder_opened (disk : Disk) (path : Path) (parallel : Bool) :
    (opened disk path parallel).folder =
      if disk.isFolder path then path else Tool.outputFolder path := by
  rw [opened]
  split <;> rfl

theorem folder_readTree {settings : Settings} {app loaded : App} {before after : Disk}
    {printed : List Piece} (h : (readTree settings app).Yields before loaded after printed) :
    loaded.folder = app.folder := by
  have hresult : (readTree settings app before).result =
      .ok (app.load (layoutOf settings) before).value := rfl
  rw [← h.eq_of_result hresult, App.load_value]
  rfl

variable {host arguments path disk}

/-- Exploring a tree leaves it where it is. -/
theorem folder_explore {settings : Settings} {app : App} {found : Findings}
    {before after : Disk} {printed : List Piece}
    (h : (explore host arguments settings app).Yields before found after printed) :
    found.app.folder = app.folder := by
  simp only [explore, yields_bind_iff, yields_pure_iff] at h
  obtain ⟨loaded, _, _, _, hread, -, _, _, _, _, -, -, ⟨kept, filtered⟩, _, _, _, hsift, -, rfl,
    -, -⟩ := h
  exact (folder_sift hsift).trans (folder_readTree hread)

/-- What is done with what the decompiler leaves. -/
def takeOver (attempt : Tool.Attempt App) : Session App := do
  Session.setDisk attempt.disk
  if !attempt.printed.isEmpty then Session.print (.text attempt.printed)
  Session.orFail attempt.result

theorem decompile_eq (settings : Settings) (app : App) :
    decompile host settings app = Session.disk >>= fun disk =>
      tell (app.decompile host.launch settings.decompiler disk) >>= takeOver := rfl

theorem takeOver_outcome (attempt : Tool.Attempt App) (disk : Disk) :
    (takeOver attempt disk).result = attempt.result.mapError .fault ∧
      (takeOver attempt disk).disk = attempt.disk := by
  rcases attempt with ⟨result, after, printed⟩
  rw [takeOver]
  cases hempty : printed.isEmpty <;> cases result <;> exact ⟨rfl, rfl⟩

variable (host disk) in
/-- Decompiling in a run comes to what the decompiler comes to, on the disk that it leaves. -/
theorem decompile_outcome (settings : Settings) (app : App) :
    (decompile host settings app disk).result =
        (app.decompile host.launch settings.decompiler disk).value.result.mapError .fault ∧
      (decompile host settings app disk).disk =
        (app.decompile host.launch settings.decompiler disk).value.disk := by
  rw [decompile_eq, bind_of_ok (a := disk) rfl, bind_of_ok rfl]
  exact takeOver_outcome _ _

variable (host path) in
/-- Without settings nothing is unpacked. -/
theorem unpack_of_error {failure : Failure} (h : (settle arguments disk).result = .error failure) :
    (unpack host arguments path disk).result = .error failure ∧
      (unpack host arguments path disk).disk = disk :=
  (observes_settle arguments).keeps.outcome_bind_of_error h

variable (host path) in
/-- With settings, unpacking comes to what the decompiler comes to. -/
theorem unpack_of_ok {settings : Settings} (h : (settle arguments disk).result = .ok settings) :
    (unpack host arguments path disk).result =
        (decompile host settings (opened disk path settings.parallel) disk).result.map
          (settings, ·) ∧
      (unpack host arguments path disk).disk =
        (decompile host settings (opened disk path settings.parallel) disk).disk := by
  have hunpack : (unpack host arguments path disk).result =
        ((decompile host settings (opened disk path settings.parallel) >>= fun app =>
          pure (settings, app) : Session (Settings × App)) disk).result ∧
      (unpack host arguments path disk).disk =
        ((decompile host settings (opened disk path settings.parallel) >>= fun app =>
          pure (settings, app) : Session (Settings × App)) disk).disk :=
    (observes_settle arguments).keeps.outcome_bind h
  rw [hunpack.1, hunpack.2]
  cases hresult : (decompile host settings (opened disk path settings.parallel) disk).result with
  | error failure =>
    rw [bind_of_error hresult]
    exact ⟨rfl, rfl⟩
  | ok app =>
    rw [bind_of_ok hresult]
    exact ⟨rfl, rfl⟩

/-- Once the tree is unpacked, the settings were found and the decompiler, if it was needed, has
    succeeded. -/
theorem unpack_ok {settings : Settings} {app : App}
    (h : (unpack host arguments path disk).result = .ok (settings, app)) :
    (settle arguments disk).result = .ok settings ∧
      app = opened disk path settings.parallel ∧
      (app.decompile host.launch settings.decompiler disk).value.result = .ok app ∧
      (unpack host arguments path disk).disk =
        (app.decompile host.launch settings.decompiler disk).value.disk := by
  cases hsettle : (settle arguments disk).result with
  | error failure => cases (unpack_of_error host path hsettle).1.symm.trans h
  | ok settings' =>
    obtain ⟨hresult, hdisk⟩ := unpack_of_ok host path hsettle
    obtain ⟨hdecompile, hafter⟩ := decompile_outcome host disk settings'
      (opened disk path settings'.parallel)
    rw [hresult, hdecompile] at h
    rw [hdisk, hafter]
    cases hattempt : ((opened disk path settings'.parallel).decompile host.launch
        settings'.decompiler disk).value.result with
    | error fault =>
      rw [hattempt] at h
      cases h
    | ok after =>
      rw [hattempt] at h
      obtain ⟨rfl, rfl⟩ := Prod.mk.inj (Except.ok.inj h)
      -- a decompiler that succeeds leaves the application as it was
      obtain rfl := App.decompile_ok (placed_opened path disk _) hattempt
      exact ⟨rfl, rfl, hattempt, rfl⟩

/-! ## Trees that are there already -/

theorem decompile_ofFolder (host : Host) (settings : Settings) (path : Path) (parallel : Bool) :
    decompile host settings (.ofFolder path parallel) = pure (.ofFolder path parallel) := rfl

theorem dropArchive_ofFolder (host : Host) (arguments : Arguments) (path : Path)
    (parallel : Bool) : dropArchive host arguments (.ofFolder path parallel) = pure () := rfl

theorem opened_of_isFolder (h : disk.isFolder path = true) (parallel : Bool) :
    opened disk path parallel = .ofFolder path parallel := if_pos h

theorem keeps_listAll (host : Host) (arguments : Arguments) (settings : Settings) (app : App) :
    (listAll host arguments settings app).Keeps := by
  rw [listAll]
  split
  · exact fun _ => rfl
  · exact fun _ => rfl

theorem keeps_explore (host : Host) (arguments : Arguments) (settings : Settings) (app : App) :
    (explore host arguments settings app).Keeps :=
  (observes_readTree settings app).keeps.bind fun loaded =>
    (keeps_listAll host arguments settings loaded).bind fun _ =>
      (observes_sift arguments settings loaded).keeps.bind fun _ => (observes_pure _).keeps

/-- Nothing is decompiled, and there is no archive to be removed. -/
theorem disk_survey_of_isFolder (h : disk.isFolder path = true) :
    (survey host arguments path disk).disk = disk := by
  rw [survey_eq]
  cases hsettle : (settle arguments disk).result with
  | error failure =>
    obtain ⟨hresult, hdisk⟩ := unpack_of_error host path hsettle
    rw [bind_of_error hresult, hdisk]
  | ok settings =>
    have hunpack := unpack_of_ok host path hsettle
    rw [opened_of_isFolder h, decompile_ofFolder] at hunpack
    obtain ⟨hresult, hdisk⟩ := hunpack
    rw [bind_of_ok hresult, hdisk, dropArchive_ofFolder, pure_bind_eq]
    exact keeps_explore host arguments settings _ disk

end Cli

end SmaliSieve
