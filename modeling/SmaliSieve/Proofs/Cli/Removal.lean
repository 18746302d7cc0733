/-
  SmaliSieve.Proofs.Cli.Removal

  What a run removes, and when.

  Removing is told before it is tried, so the remarks of a run say what it removes
  (`removals`). All steps but two remove nothing (`Session.Spares`). The archive goes right
  after it was decompiled, if that succeeded, and the tree after the report was made; both only
  if that was asked for and agreed to (`Careful`). A run that fails on the way leaves out what
  would have come behind.
-/

import SmaliSieve.Proofs.Cli.Unpacking

namespace SmaliSieve

/-! ## What is told of removals -/

namespace Log

/-- The file or folder that the event says is about to be removed. -/
def Event.removed? : Event → Option Path
  | .deleting path => some path
  | _ => none

/-- No removal is among the events. -/
def Logged.Spares {α : Type} (logged : Logged α) : Prop :=
  ∀ event ∈ logged.events, event.removed? = none

variable {α β : Type}

theorem Logged.spares_pure (a : α) : (pure a : Logged α).Spares :=
  fun _ hmem => absurd hmem List.not_mem_nil

theorem Logged.Spares.bind {first : Logged α} {next : α → Logged β} (hfirst : first.Spares)
    (hnext : (next first.value).Spares) : (first >>= next).Spares := by
  intro event hmem
  rw [Logged.events_bind] at hmem
  rcases List.mem_append.mp hmem with hmem | hmem
  · exact hfirst event hmem
  · exact hnext event hmem

theorem Logged.spares_nil (a : α) : (⟨a, []⟩ : Logged α).Spares :=
  fun _ hmem => absurd hmem List.not_mem_nil

theorem Logged.spares_singleton (a : α) {event : Event} (h : event.removed? = none) :
    (⟨a, [event]⟩ : Logged α).Spares := by
  intro other hmem
  rwa [List.mem_singleton.mp hmem]

end Log

open Log (Logged)

theorem Settings.spares_load (disk : Disk) (path : Path) : (Settings.load disk path).Spares := by
  rw [Settings.load]
  split
  · exact Logged.spares_singleton _ rfl
  · exact Logged.spares_nil _

theorem Settings.spares_loadFrom (disk : Disk) (folder : Path) :
    (Settings.loadFrom disk folder).Spares := by
  rw [Settings.loadFrom]
  split
  · exact Settings.spares_load _ _
  · exact Logged.spares_pure _

theorem Tool.spares_decompile (launch : Tool.Launcher) (binary : String) (archive : Path)
    (disk : Disk) : (Tool.decompile launch binary archive disk).Spares := by
  rw [Tool.decompile]
  split
  · simp [Logged.Spares, Log.Event.removed?]
  · exact Logged.spares_nil _

theorem Disassembly.spares_roots (layout : Disassembly.Layout) (disk : Disk) (base : Path) :
    (Disassembly.roots layout disk base).Spares := by
  rw [Disassembly.roots]
  split
  · exact Logged.spares_nil _
  · exact Logged.spares_singleton _ rfl

theorem Disassembly.removed?_of_mem_unreadable {files : List (Path × FileTree)} {event : Log.Event}
    (h : event ∈ Disassembly.unreadable files) : event.removed? = none := by
  obtain ⟨file, -, hevent⟩ := List.mem_filterMap.mp h
  split at hevent
  · cases hevent
  · obtain rfl := Option.some.inj hevent
    rfl

theorem Disassembly.spares_collect (layout : Disassembly.Layout) (disk : Disk) (base : Path) :
    (Disassembly.collect layout disk base).Spares := by
  apply (Disassembly.spares_roots layout disk base).bind
  apply Logged.Spares.bind
  · intro event hmem
    rcases List.mem_append.mp hmem with hmem | hmem
    · exact Disassembly.removed?_of_mem_unreadable hmem
    · rw [List.mem_singleton.mp hmem]
      rfl
  · exact Logged.spares_pure _

theorem Disassembly.spares_sources (layout : Disassembly.Layout) (disk : Disk) (base : Path) :
    (Disassembly.sources layout disk base).Spares :=
  (Disassembly.spares_roots layout disk base).bind (Logged.spares_pure _)

theorem Smali.spares_aggregateLogged (files : List Smali.SourceFile) :
    (Smali.aggregateLogged files).Spares := by
  intro event hmem
  rw [Smali.events_aggregateLogged] at hmem
  simp only [List.mem_append, List.mem_map] at hmem
  rcases hmem with ((⟨file, -, rfl⟩ | hmem) | hmem) | hmem
  · rfl
  · split at hmem
    · cases hmem
    · rw [List.mem_singleton.mp hmem]
      rfl
  · rw [List.mem_singleton.mp hmem]
    rfl
  · split at hmem
    · rw [List.mem_singleton.mp hmem]
      rfl
    · cases hmem

theorem Manifest.spares_readPackage (disk : Disk) (base : Path) :
    (Manifest.readPackage disk base).Spares := by
  rw [Manifest.readPackage]
  split
  · exact Logged.spares_singleton _ rfl
  · split <;> exact Logged.spares_singleton _ rfl

theorem Namespace.PrefixList.spares_load (disk : Disk) (path : Path) :
    (Namespace.PrefixList.load disk path).Spares := by
  rw [Namespace.PrefixList.load]
  split <;> exact Logged.spares_singleton _ rfl

theorem Namespace.FilterReport.removed?_of_mem_events {report : Namespace.FilterReport}
    {event : Log.Event} (h : event ∈ report.events) : event.removed? = none := by
  rw [events] at h
  rcases List.mem_cons.mp h with rfl | h
  · rfl
  · split at h
    · rw [List.mem_singleton.mp h]
      rfl
    · simp only [List.mem_append, List.mem_map] at h
      rcases h with (⟨count, -, rfl⟩ | ⟨count, -, rfl⟩) | ⟨count, -, rfl⟩ <;> rfl

namespace App

theorem spares_decompile (launch : Tool.Launcher) (binary : String) (disk : Disk) (app : App) :
    (app.decompile launch binary disk).Spares := by
  rw [App.decompile]
  split
  · exact Logged.spares_pure _
  · exact (Tool.spares_decompile _ _ _ _).bind (Logged.spares_pure _)

theorem spares_withClasses (app : App) (classes : List Smali.ClassRecord) :
    (app.withClasses classes).Spares :=
  Logged.Spares.bind (Logged.spares_singleton _ rfl) (Logged.spares_pure _)

theorem spares_load (layout : Disassembly.Layout) (disk : Disk) (app : App) :
    (app.load layout disk).Spares := by
  apply (Disassembly.spares_collect layout disk app.folder).bind
  apply Logged.Spares.bind (Logged.spares_singleton _ rfl)
  apply (Smali.spares_aggregateLogged _).bind
  exact (spares_withClasses _ _).bind (Logged.spares_pure _)

theorem spares_filter (filter : Namespace.Filter) (package : Option String) (app : App) :
    (app.filter filter package).Spares := by
  apply Logged.Spares.bind
  · exact fun event hmem => Namespace.FilterReport.removed?_of_mem_events hmem
  · split
    · exact Logged.spares_pure _
    · exact (spares_withClasses _ _).bind (Logged.spares_pure _)

theorem spares_sourceFiles (layout : Disassembly.Layout) (disk : Disk) (app : App) :
    (app.sourceFiles layout disk).Spares :=
  (Disassembly.spares_roots _ _ _).bind (Logged.spares_pure _)

theorem value_deleteArchive (disk : Disk) (app : App) :
    (app.deleteArchive disk).value =
      match app.archive with
      | some archive => (disk.removeFile archive).toOption.getD disk
      | none => disk := by
  rw [App.deleteArchive]
  cases app.archive with
  | none => rfl
  | some archive =>
    dsimp only
    cases disk.removeFile archive <;> rfl

theorem removed_deleteArchive (disk : Disk) (app : App) :
    (app.deleteArchive disk).events.filterMap Log.Event.removed? = app.archive.toList := by
  rw [App.deleteArchive]
  split
  · next harchive => rw [harchive]; rfl
  · next archive harchive => rw [harchive]; split <;> rfl

theorem removed_deleteTree (disk : Disk) (app : App) :
    (app.deleteTree disk).events.filterMap Log.Event.removed? = [app.folder] := by
  rw [App.deleteTree]
  cases (disk.removeTree app.folder).failure <;> rfl

end App

namespace Cli

open Session

/-- The file or folder that the remark says is about to be removed. -/
def Remark.removed? : Remark → Option Path
  | .event told => told.removed?
  | .written _ => none

/-- What is removed, in order. -/
def removals (remarks : List Remark) : List Path := remarks.filterMap Remark.removed?

theorem removals_append (front behind : List Remark) :
    removals (front ++ behind) = removals front ++ removals behind :=
  List.filterMap_append

theorem removals_events (events : List Log.Event) :
    removals (events.map .event) = events.filterMap Log.Event.removed? :=
  List.filterMap_map

namespace Session

variable {α β : Type}

/-- Nothing is removed. -/
def Spares (session : Session α) : Prop := ∀ disk, removals (session disk).remarks = []

/-- What is removed by one computation and the next: the latter removes nothing if the former
    fails. -/
theorem removals_bind (first : Session α) (next : α → Session β) (disk : Disk) :
    removals ((first >>= next) disk).remarks = removals (first disk).remarks ++
      match (first disk).result with
      | .ok a => removals (next a (first disk).disk).remarks
      | .error _ => [] := by
  cases hresult : (first disk).result with
  | error failure => rw [bind_of_error hresult, List.append_nil]
  | ok a => rw [bind_of_ok hresult, removals_append]

/-- What comes behind and removes nothing does not matter. -/
theorem removals_bind_of_spares {first : Session α} {next : α → Session β}
    (hnext : ∀ a, (next a).Spares) (disk : Disk) :
    removals ((first >>= next) disk).remarks = removals (first disk).remarks := by
  rw [removals_bind]
  split
  · next a _ => rw [hnext a, List.append_nil]
  · exact List.append_nil _

theorem Spares.bind {first : Session α} {next : α → Session β} (hfirst : first.Spares)
    (hnext : ∀ a, (next a).Spares) : (first >>= next).Spares := by
  intro disk
  rw [removals_bind_of_spares hnext]
  exact hfirst disk

theorem spares_pure (a : α) : (pure a : Session α).Spares := fun _ => rfl

theorem spares_disk : disk.Spares := fun _ => rfl

theorem spares_setDisk (disk : Disk) : (setDisk disk).Spares := fun _ => rfl

theorem spares_print (piece : Piece) : (print piece).Spares := fun _ => rfl

theorem spares_fail (failure : Failure) : (fail failure : Session α).Spares := fun _ => rfl

theorem spares_say {remark : Remark} (h : remark.removed? = none) : (say remark).Spares :=
  fun _ => List.filterMap_eq_nil_iff.mpr fun _ hmem => List.mem_singleton.mp hmem ▸ h

theorem spares_tell {logged : Logged α} (h : logged.Spares) : (tell logged).Spares := by
  intro disk
  show removals (logged.events.map .event) = []
  rw [removals_events]
  exact List.filterMap_eq_nil_iff.mpr h

theorem spares_orFail (result : Except Fault α) : (orFail result).Spares := by
  cases result with
  | error fault => exact spares_fail _
  | ok a => exact spares_pure a

end Session

/-! ## Steps that remove nothing -/

theorem spares_settle (arguments : Arguments) : (settle arguments).Spares := by
  apply spares_disk.bind
  intro disk
  apply Spares.bind
  · split
    · exact spares_tell (Settings.spares_load _ _)
    · exact spares_tell (Settings.spares_loadFrom _ _)
  · intro loaded
    exact (spares_orFail loaded).bind fun settings => spares_pure _

theorem spares_confirm (host : Host) (arguments : Arguments) (question : String) :
    (confirm host arguments question).Spares := by
  rw [confirm]
  split
  · exact spares_pure _
  · split
    · exact spares_pure _
    · exact (spares_say rfl).bind fun _ => spares_pure _

theorem spares_open? (path : Path) (parallel : Bool) : (open? path parallel).Spares :=
  spares_disk.bind fun _ => spares_pure _

theorem spares_decompile (host : Host) (settings : Settings) (app : App) :
    (decompile host settings app).Spares := by
  apply spares_disk.bind
  intro disk
  apply (spares_tell (App.spares_decompile _ _ _ _)).bind
  intro attempt
  apply (spares_setDisk _).bind
  intro
  cases hprinted : attempt.printed.isEmpty with
  | true => exact (spares_pure ()).bind fun _ => spares_orFail _
  | false => exact (spares_print _).bind fun _ => spares_orFail _

theorem spares_readTree (settings : Settings) (app : App) : (readTree settings app).Spares := by
  apply (spares_say rfl).bind
  intro
  apply spares_disk.bind
  intro disk
  apply (spares_tell (App.spares_load _ _ _)).bind
  intro loaded
  exact (spares_say rfl).bind fun _ => spares_pure _

theorem spares_listAll (host : Host) (arguments : Arguments) (settings : Settings) (app : App) :
    (listAll host arguments settings app).Spares := by
  rw [listAll]
  split
  · apply spares_disk.bind
    intro disk
    exact (spares_tell (Disassembly.spares_sources _ _ _)).bind fun _ => spares_print _
  · exact spares_pure _

theorem spares_choosePackage (arguments : Arguments) (app : App) :
    (choosePackage arguments app).Spares := by
  rw [choosePackage]
  split
  · exact spares_pure _
  · exact spares_disk.bind fun _ => spares_tell (Manifest.spares_readPackage _ _)

theorem spares_filterFor (settings : Settings) (package : Option String) :
    (filterFor settings package).Spares := by
  rw [filterFor]
  split
  · apply spares_disk.bind
    intro disk
    apply (spares_tell (Namespace.PrefixList.spares_load _ _)).bind
    intro system
    apply spares_disk.bind
    intro disk
    exact (spares_tell (Namespace.PrefixList.spares_load _ _)).bind fun _ => spares_pure _
  · exact spares_pure _

theorem spares_sift (arguments : Arguments) (settings : Settings) (app : App) :
    (sift arguments settings app).Spares := by
  apply (spares_choosePackage arguments app).bind
  intro package
  apply (spares_filterFor settings package).bind
  exact fun filter => spares_tell (App.spares_filter _ _ _)

theorem spares_filesFor (arguments : Arguments) (settings : Settings) (app : App) :
    (filesFor arguments settings app).Spares := by
  rw [filesFor]
  split
  · apply spares_disk.bind
    intro disk
    apply (spares_tell (App.spares_sourceFiles _ _ _)).bind
    intro files
    cases files with
    | some files => exact spares_pure files
    | none => exact spares_fail _
  · exact spares_pure _

theorem spares_issue (made : Report.Made) : (issue made).Spares := by
  rcases made with ⟨text, written, disk⟩
  rw [issue]
  apply (spares_setDisk disk).bind
  intro
  cases hempty : text.isEmpty <;> cases written <;> exact fun disk => rfl

theorem spares_report (host : Host) (arguments : Arguments) (settings : Settings) (app : App)
    (filtered : Namespace.FilterReport) :
    (report host arguments settings app filtered).Spares := by
  rw [report_eq]
  apply (spares_filesFor arguments settings app).bind
  intro files
  apply spares_disk.bind
  intro disk
  exact (spares_orFail _).bind spares_issue

theorem spares_closing (arguments : Arguments) : (closing arguments).Spares := by
  rw [closing]
  split
  · exact (spares_print _).bind fun _ => spares_print _
  · exact spares_pure _

/-! ## The two removals -/

variable (host : Host) (arguments : Arguments)

/-- A removal is told of exactly if it is wanted. -/
theorem removals_removal (question : String) (removed : Disk → Logged Disk) (disk : Disk) :
    removals (removal host arguments question removed disk).remarks =
      if host.agrees arguments question then
        (removed disk).events.filterMap Log.Event.removed?
      else [] := by
  rw [removal, removals_bind, spares_confirm host arguments question disk, List.nil_append,
    result_confirm, (observes_confirm host arguments question).keeps disk]
  cases host.agrees arguments question with
  | false => rfl
  | true =>
    show removals ([] ++ ((removed disk).events.map .event ++ [])) = _
    rw [List.nil_append, List.append_nil, removals_events]
    rfl

/-- The run is to remove the archive of a decompiled tree. -/
def dropsArchive : Bool :=
  arguments.has .deleteArchive && host.agrees arguments "Delete the APK file?"

theorem removals_dropArchive (app : App) (disk : Disk) :
    removals (dropArchive host arguments app disk).remarks =
      if dropsArchive host arguments then app.archive.toList else [] := by
  rw [dropArchive_eq, dropsArchive]
  cases harchive : app.archive with
  | none =>
    rw [if_neg (by simp)]
    exact (ite_self _).symm
  | some archive =>
    by_cases hdelete : arguments.has .deleteArchive = true
    · rw [if_pos (by simpa using hdelete), removals_removal, App.removed_deleteArchive, hdelete,
        Bool.true_and, harchive]
    · rw [if_neg (by simpa using hdelete), Bool.eq_false_iff.mpr hdelete, Bool.false_and]
      rfl

theorem removals_cleanUp (app : App) (disk : Disk) :
    removals (cleanUp host arguments app disk).remarks =
      if cleansUp host arguments then [app.folder] else [] := by
  rw [cleanUp_eq, cleansUp]
  by_cases hcleanup : arguments.has .cleanup = true
  · rw [if_pos hcleanup, removals_removal, App.removed_deleteTree, hcleanup, Bool.true_and]
  · rw [if_neg hcleanup, Bool.eq_false_iff.mpr hcleanup, Bool.false_and]
    rfl

/-! ## Where the removals stand among the steps -/

/-- The steps of a run up to the report that was made. -/
def reported (path : Path) : Session Findings := do
  let found ← survey host arguments path
  report host arguments found.settings found.app found.filtered
  return found

theorem steps_eq_reported (path : Path) :
    steps host arguments path = reported host arguments path >>= fun found =>
      cleanUp host arguments found.app >>= fun _ => closing arguments := by
  rw [steps_eq, reported, bind_bind]
  simp only [bind_bind, pure_bind_eq]
  rfl

theorem reported_eq (path : Path) :
    reported host arguments path = unpack host arguments path >>= fun unpacked =>
      dropArchive host arguments unpacked.2 >>= fun _ =>
        explore host arguments unpacked.1 unpacked.2 >>= fun found =>
          report host arguments found.settings found.app found.filtered >>= fun _ =>
            pure found := by
  simp only [reported, survey_eq, bind_bind]

theorem spares_unpack (path : Path) : (unpack host arguments path).Spares := by
  apply (spares_say rfl).bind
  intro
  apply (spares_settle arguments).bind
  intro settings
  apply (spares_open? path settings.parallel).bind
  intro app
  exact (spares_decompile host settings app).bind fun _ => spares_pure _

theorem spares_explore (settings : Settings) (app : App) :
    (explore host arguments settings app).Spares := by
  apply (spares_readTree settings app).bind
  intro app
  apply (spares_listAll host arguments settings app).bind
  intro
  exact (spares_sift arguments settings app).bind fun _ => spares_pure _

variable (path : Path) (disk : Disk)

/-- The archive that a run removes. -/
def droppedArchive? : Option Path :=
  match (unpack host arguments path disk).result with
  | .ok (_, app) => if dropsArchive host arguments then app.archive else none
  | .error _ => none

/-- The tree that a run removes. -/
def cleanedFolder? : Option Path :=
  match (reported host arguments path disk).result with
  | .ok found => if cleansUp host arguments then some found.app.folder else none
  | .error _ => none

/-- Up to the report, nothing but the archive is removed. -/
theorem removals_reported :
    removals (reported host arguments path disk).remarks =
      (droppedArchive? host arguments path disk).toList := by
  rw [reported_eq, removals_bind, spares_unpack, List.nil_append, droppedArchive?]
  cases (unpack host arguments path disk).result with
  | error failure => rfl
  | ok unpacked =>
    dsimp only
    -- nothing behind the removal of the archive removes anything, up to the report
    rw [removals_bind_of_spares fun _ => (spares_explore _ _ _ _).bind fun _ =>
      (spares_report _ _ _ _ _).bind fun _ => spares_pure _, removals_dropArchive]
    split <;> rfl

/-- A run removes the archive, then the tree, and nothing else. -/
theorem removals_steps :
    removals (steps host arguments path disk).remarks =
      (droppedArchive? host arguments path disk).toList ++
        (cleanedFolder? host arguments path disk).toList := by
  rw [steps_eq_reported, removals_bind, removals_reported, cleanedFolder?]
  congr 1
  cases (reported host arguments path disk).result with
  | error failure => rfl
  | ok found =>
    dsimp only
    rw [removals_bind_of_spares fun _ => spares_closing arguments, removals_cleanUp]
    split <;> rfl

/-! ## What has to have happened before -/

variable {host arguments path disk}

theorem agrees_of_dropsArchive (h : dropsArchive host arguments = true) :
    arguments.has .deleteArchive = true ∧
      host.agrees arguments "Delete the APK file?" = true := by
  simpa [dropsArchive] using h

/-- An archive is removed only after it was decompiled, and only if that is wanted. -/
theorem droppedArchive?_eq_some {archive : Path}
    (h : droppedArchive? host arguments path disk = some archive) :
    archive = path ∧ disk.isFolder path = false ∧ arguments.has .deleteArchive = true ∧
      host.agrees arguments "Delete the APK file?" = true ∧
      ∃ settings, (settle arguments disk).result = .ok settings ∧
        let run := host.launch settings.decompiler
          (Tool.arguments path (Tool.outputFolder path)) disk
        run.ending = .ok (.exited 0) ∧ run.disk.isFolder (Tool.outputFolder path) = true ∧
          (unpack host arguments path disk).disk = run.disk := by
  rw [droppedArchive?] at h
  split at h
  · next settings app hunpack =>
    split at h
    · next hdrops =>
      obtain ⟨hsettle, rfl, hdecompile, hdisk⟩ := unpack_ok hunpack
      -- there is an archive, so the tree has come from the decompiler
      obtain ⟨rfl, hfolder⟩ := archive_opened path disk h
      rw [App.decompile_of_some h] at hdecompile hdisk
      cases hresult : (Tool.decompile host.launch settings.decompiler archive
          disk).value.result with
      | error fault =>
        dsimp only at hdecompile
        rw [hresult] at hdecompile
        cases hdecompile
      | ok folder =>
        obtain ⟨⟨hfile, hending, houtput⟩, -⟩ := Tool.decompile_eq_ok_iff.mp hresult
        obtain ⟨hdelete, hagrees⟩ := agrees_of_dropsArchive hdrops
        rw [Tool.decompile_of_isFile hfile] at hdisk
        exact ⟨rfl, hfolder, hdelete, hagrees, settings, hsettle, hending, houtput, hdisk⟩
    · cases h
  · cases h

/-- A tree is removed only after the report was made, and only if that is wanted. -/
theorem cleanedFolder?_eq_some {folder : Path}
    (h : cleanedFolder? host arguments path disk = some folder) :
    arguments.has .cleanup = true ∧
      host.agrees arguments "Delete the decompiled directory?" = true ∧
      ∃ found, (reported host arguments path disk).result = .ok found ∧
        folder = found.app.folder := by
  rw [cleanedFolder?] at h
  split at h
  · next found hreported =>
    split at h
    · next hcleans =>
      obtain ⟨hcleanup, hagrees⟩ : arguments.has .cleanup = true ∧
          host.agrees arguments "Delete the decompiled directory?" = true := by
        simpa [cleansUp] using hcleans
      exact ⟨hcleanup, hagrees, found, hreported, (Option.some.inj h).symm⟩
    · cases h
  · cases h

/-! ## What is left behind -/

theorem disk_dropArchive (app : App) :
    (dropArchive host arguments app disk).disk =
      if dropsArchive host arguments then (app.deleteArchive disk).value else disk := by
  rw [dropArchive_eq, dropsArchive]
  cases harchive : app.archive with
  | none =>
    rw [if_neg (by simp), App.value_deleteArchive, harchive]
    exact (ite_self _).symm
  | some archive =>
    by_cases hdelete : arguments.has .deleteArchive = true
    · obtain ⟨_, hresult⟩ := completes_removal host arguments "Delete the APK file?"
        (app.deleteArchive ·) disk
      rw [if_pos (by simpa using hdelete), hdelete, Bool.true_and]
      exact yields_removal (yields_of_ok hresult)
    · rw [if_neg (by simpa using hdelete), Bool.eq_false_iff.mpr hdelete, Bool.false_and]
      rfl

theorem disk_cleanUp (app : App) :
    (cleanUp host arguments app disk).disk =
      if cleansUp host arguments then (disk.removeTree app.folder).disk else disk := by
  obtain ⟨_, hresult⟩ := completes_cleanUp host arguments app disk
  exact yields_cleanUp (yields_of_ok hresult)

theorem keeps_closing : (closing arguments).Keeps := by
  rw [closing]
  split
  · exact Keeps.bind (fun _ => rfl) fun _ _ => rfl
  · exact (observes_pure _).keeps

/-- The disk on which the tree is read is the one that unpacking leaves, without the archive if
    that is removed and can be. -/
theorem disk_prepare :
    (prepare host arguments path disk).disk =
      match droppedArchive? host arguments path disk with
      | some archive =>
        ((unpack host arguments path disk).disk.removeFile archive).toOption.getD
          (unpack host arguments path disk).disk
      | none => (unpack host arguments path disk).disk := by
  have hread (unpacked : Settings × App) : (readTree unpacked.1 unpacked.2 >>= fun app =>
      (pure (unpacked.1, app) : Session (Settings × App))).Keeps :=
    (observes_readTree _ _).keeps.bind fun _ => (observes_pure _).keeps
  rw [prepare_eq, droppedArchive?]
  cases hunpack : (unpack host arguments path disk).result with
  | error failure => rw [bind_of_error hunpack]
  | ok unpacked =>
    rw [bind_of_ok hunpack]
    dsimp only
    rw [disk_bind_of_keeps fun _ => hread unpacked, disk_dropArchive]
    split
    · exact App.value_deleteArchive _ _
    · rfl

/-- The disk at the end is the one on which the report was made, without the tree if that is
    removed. -/
theorem disk_steps :
    (steps host arguments path disk).disk =
      match cleanedFolder? host arguments path disk with
      | some folder => ((reported host arguments path disk).disk.removeTree folder).disk
      | none => (reported host arguments path disk).disk := by
  rw [steps_eq_reported, cleanedFolder?]
  cases hreported : (reported host arguments path disk).result with
  | error failure => rw [bind_of_error hreported]
  | ok found =>
    rw [bind_of_ok hreported]
    dsimp only
    rw [disk_bind_of_keeps fun _ => keeps_closing, disk_cleanUp]
    split <;> rfl

/-- A run whose report was made ends with the code 0. -/
theorem code_of_reported {found : Findings}
    (h : (reported host arguments path disk).result = .ok found) :
    (runSteps host arguments path disk).ending.code = 0 := by
  -- behind the report nothing can fail any more
  obtain ⟨_, hend⟩ := ((completes_cleanUp host arguments found.app).bind fun _ =>
    completes_closing arguments) (reported host arguments path disk).disk
  have hsteps : (steps host arguments path disk).result = .ok () := by
    rw [steps_eq_reported, bind_of_ok h]
    exact hend
  rw [runSteps, hsteps]
  rfl

theorem remarks_prefix_bind {α β : Type} (first : Session α) (next : α → Session β) :
    (first disk).remarks <+: ((first >>= next) disk).remarks := by
  cases hresult : (first disk).result with
  | error failure => exact ⟨[], by rw [bind_of_error hresult, List.append_nil]⟩
  | ok a =>
    rw [bind_of_ok hresult]
    exact List.prefix_append _ _

/-- The tree that is reported on stands at the path, or where the decompiler puts it. -/
theorem folder_reported {found : Findings}
    (h : (reported host arguments path disk).result = .ok found) :
    found.app.folder = if disk.isFolder path then path else Tool.outputFolder path := by
  have hyields := yields_of_ok h
  rw [reported_eq] at hyields
  simp only [yields_bind_iff, yields_pure_iff] at hyields
  obtain ⟨⟨settings, app⟩, _, _, _, hunpack, -, _, _, _, _, hdrop, -, _, _, _, _, hexplore, -,
    _, _, _, _, hreport, -, rfl, -, -⟩ := hyields
  obtain ⟨-, rfl, -, -⟩ := unpack_ok hunpack.result
  rw [← folder_opened disk path settings.parallel]
  exact folder_explore hexplore

/-- A run is careful about what it removes. -/
structure Careful (host : Host) (arguments : Arguments) (path : Path) (disk : Disk) : Prop where
  /-- Before the tree is there nothing is removed. -/
  unpacking : removals (unpack host arguments path disk).remarks = []
  /-- Then the archive may be, and nothing else before the report is made. -/
  reporting : (unpack host arguments path disk).remarks <+:
      (reported host arguments path disk).remarks ∧
    removals (reported host arguments path disk).remarks =
      (droppedArchive? host arguments path disk).toList
  /-- Behind the report the tree may be, and nothing else. -/
  finishing : (reported host arguments path disk).remarks <+:
      (steps host arguments path disk).remarks ∧
    removals (steps host arguments path disk).remarks =
      (droppedArchive? host arguments path disk).toList ++
        (cleanedFolder? host arguments path disk).toList
  /-- The archive is the path of the run, which is no folder. Its removal was asked for and
      agreed to, and the decompiler has succeeded with it. -/
  archive : ∀ archive, droppedArchive? host arguments path disk = some archive →
    archive = path ∧ disk.isFolder path = false ∧ arguments.has .deleteArchive = true ∧
      host.agrees arguments "Delete the APK file?" = true ∧
      ∃ settings, (settle arguments disk).result = .ok settings ∧
        let run := host.launch settings.decompiler
          (Tool.arguments path (Tool.outputFolder path)) disk
        run.ending = .ok (.exited 0) ∧ run.disk.isFolder (Tool.outputFolder path) = true ∧
          (unpack host arguments path disk).disk = run.disk
  /-- The tree is the one that was reported on. Its removal was asked for and agreed to. -/
  tree : ∀ folder, cleanedFolder? host arguments path disk = some folder →
    arguments.has .cleanup = true ∧
      host.agrees arguments "Delete the decompiled directory?" = true ∧
      folder = (if disk.isFolder path then path else Tool.outputFolder path) ∧
      ∃ found, (reported host arguments path disk).result = .ok found ∧
        folder = found.app.folder
  /-- Up to the tree that was read, the disk loses the archive or nothing. -/
  before : (prepare host arguments path disk).disk =
    match droppedArchive? host arguments path disk with
    | some archive =>
      ((unpack host arguments path disk).disk.removeFile archive).toOption.getD
        (unpack host arguments path disk).disk
    | none => (unpack host arguments path disk).disk
  /-- Behind the report, the disk loses the tree or nothing. -/
  behind : (steps host arguments path disk).disk =
    match cleanedFolder? host arguments path disk with
    | some folder => ((reported host arguments path disk).disk.removeTree folder).disk
    | none => (reported host arguments path disk).disk
  /-- Without settings nothing is removed, and the disk stays as it is. -/
  unsettled : ∀ failure, (settle arguments disk).result = .error failure →
    removals (steps host arguments path disk).remarks = [] ∧
      (steps host arguments path disk).disk = disk
  /-- Without a tree nothing is removed, and the disk stays as the decompiler leaves it. -/
  undecompiled : ∀ failure, (unpack host arguments path disk).result = .error failure →
    removals (steps host arguments path disk).remarks = [] ∧
      (steps host arguments path disk).disk = (unpack host arguments path disk).disk
  /-- A run that ends with another code than 0 does not remove the tree. -/
  failing : (runSteps host arguments path disk).ending.code ≠ 0 →
    cleanedFolder? host arguments path disk = none

theorem droppedArchive?_of_error {failure : Failure}
    (h : (unpack host arguments path disk).result = .error failure) :
    droppedArchive? host arguments path disk = none := by
  rw [droppedArchive?, h]

/-- Without a tree the run is over. -/
theorem steps_of_error {failure : Failure}
    (h : (unpack host arguments path disk).result = .error failure) :
    removals (steps host arguments path disk).remarks = [] ∧
      (steps host arguments path disk).disk = (unpack host arguments path disk).disk := by
  have hreported : (reported host arguments path disk).result = .error failure ∧
      (reported host arguments path disk).disk = (unpack host arguments path disk).disk := by
    rw [reported_eq, bind_of_error h]
    exact ⟨rfl, rfl⟩
  rw [removals_steps, disk_steps, droppedArchive?_of_error h, cleanedFolder?, hreported.1]
  exact ⟨rfl, hreported.2⟩

theorem careful (host : Host) (arguments : Arguments) (path : Path) (disk : Disk) :
    Careful host arguments path disk where
  unpacking := spares_unpack host arguments path disk
  reporting := by
    refine ⟨?_, removals_reported host arguments path disk⟩
    rw [reported_eq]
    exact remarks_prefix_bind _ _
  finishing := by
    refine ⟨?_, removals_steps host arguments path disk⟩
    rw [steps_eq_reported]
    exact remarks_prefix_bind _ _
  archive _ := droppedArchive?_eq_some
  tree folder h := by
    obtain ⟨hcleanup, hagrees, found, hreported, rfl⟩ := cleanedFolder?_eq_some h
    exact ⟨hcleanup, hagrees, folder_reported hreported, found, hreported, rfl⟩
  before := disk_prepare
  behind := disk_steps
  unsettled failure h := by
    obtain ⟨hunpack, hdisk⟩ := unpack_of_error host path h
    obtain ⟨hnothing, hsteps⟩ := steps_of_error hunpack
    exact ⟨hnothing, hsteps.trans hdisk⟩
  undecompiled _ := steps_of_error
  failing hcode := by
    rw [cleanedFolder?]
    split
    · next found hreported => exact absurd (code_of_reported hreported) hcode
    · rfl

/-- A run without steps leaves the disk alone, and one with steps is careful about what it
    removes. -/
theorem run_removals (host : Host) (words : List String) (disk : Disk) :
    (∃ ending printed, run host words disk = .plain ending disk printed) ∨
      ∃ arguments path, parseArguments words = .ok arguments ∧ arguments.path = some path ∧
        run host words disk = runSteps host arguments path disk ∧
        Careful host arguments path disk := by
  rw [run]
  split
  · exact .inl ⟨_, _, rfl⟩
  · exact .inl ⟨_, _, rfl⟩
  · exact .inl ⟨_, _, rfl⟩
  · next arguments hparse =>
    split
    · exact .inl ⟨_, _, rfl⟩
    · next path _ hpath => exact .inr ⟨arguments, path, hparse, hpath, rfl, careful _ _ _ _⟩
    · exact .inl ⟨_, _, rfl⟩

/-- A decompiler that makes an empty folder, and a user who agrees to everything. -/
def Host.agreeable : Host :=
  ⟨fun _ _ disk => ⟨.ok (.exited 0), disk.alter ["a".toList] fun _ => some (.folder []), ""⟩,
    fun _ => .ok true, false⟩

example : removals (steps .agreeable
    { Arguments.none with switches := [.deleteArchive, .cleanup] } (.ofString "a.apk")
    ⟨[("a.apk".toList, .file "".toUTF8 false)], []⟩).remarks =
      [.ofString "a.apk", .ofString "a"] := by
  decide +kernel

end Cli

end SmaliSieve
