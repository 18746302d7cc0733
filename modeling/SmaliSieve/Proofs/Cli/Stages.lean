/-
  SmaliSieve.Proofs.Cli.Stages

  The steps of a run, one after the other.

  Up to the report a run finds out what there is to report (`survey`). Most of its steps only
  look; the decompiler and the removal of the archive may change the disk, and only the
  decompiler and the list of all files print something. The report, the clean-up and the
  closing line come behind (`steps_eq`).
-/

import SmaliSieve.Proofs.Cli.Yielding
import SmaliSieve.Cli.Run

namespace SmaliSieve.Cli

open Namespace (FilterReport)
open Session

/-! ## Steps that only look -/

theorem observes_settle (arguments : Arguments) : (settle arguments).Observes := by
  apply observes_disk.bind
  intro disk
  apply (observes_tell _).bind
  intro loaded
  apply (observes_orFail loaded).bind
  exact fun settings => observes_pure _

theorem observes_open? (path : Path) (parallel : Bool) : (open? path parallel).Observes :=
  observes_disk.bind fun _ => observes_pure _

theorem observes_confirm (host : Host) (arguments : Arguments) (question : String) :
    (confirm host arguments question).Observes := by
  rw [confirm]
  split
  · exact observes_pure _
  · split
    · exact observes_pure _
    · exact (observes_say _).bind fun _ => observes_pure _

theorem observes_readTree (settings : Settings) (app : App) : (readTree settings app).Observes := by
  apply (observes_say _).bind
  intro
  apply observes_disk.bind
  intro disk
  apply (observes_tell _).bind
  intro loaded
  exact (observes_say _).bind fun _ => observes_pure _

theorem observes_choosePackage (arguments : Arguments) (app : App) :
    (choosePackage arguments app).Observes := by
  rw [choosePackage]
  split
  · exact observes_pure _
  · exact observes_disk.bind fun _ => observes_tell _

theorem observes_filterFor (settings : Settings) (package : Option String) :
    (filterFor settings package).Observes := by
  rw [filterFor]
  split
  · apply observes_disk.bind
    intro disk
    apply (observes_tell _).bind
    intro system
    apply observes_disk.bind
    intro disk
    exact (observes_tell _).bind fun _ => observes_pure _
  · exact observes_pure _

theorem observes_sift (arguments : Arguments) (settings : Settings) (app : App) :
    (sift arguments settings app).Observes := by
  apply (observes_choosePackage arguments app).bind
  intro package
  apply (observes_filterFor settings package).bind
  exact fun filter => observes_tell _

theorem observes_filesFor (arguments : Arguments) (settings : Settings) (app : App) :
    (filesFor arguments settings app).Observes := by
  rw [filesFor]
  split
  · apply observes_disk.bind
    intro disk
    apply (observes_tell _).bind
    intro files
    cases files with
    | some files => exact observes_pure files
    | none => exact observes_fail _
  · exact observes_pure _

/-! ## Steps that print nothing -/

/-- Removes something, if that is wanted. -/
def removal (host : Host) (arguments : Arguments) (question : String)
    (removed : Disk → Log.Logged Disk) : Session Unit := do
  if ← confirm host arguments question then
    setDisk (← tell (removed (← Session.disk)))

theorem dropArchive_eq (host : Host) (arguments : Arguments) (app : App) :
    dropArchive host arguments app =
      if app.archive.isSome && arguments.has .deleteArchive then
        removal host arguments "Delete the APK file?" (app.deleteArchive ·)
      else pure () := rfl

theorem cleanUp_eq (host : Host) (arguments : Arguments) (app : App) :
    cleanUp host arguments app =
      if arguments.has .cleanup then
        removal host arguments "Delete the decompiled directory?" (app.deleteTree ·)
      else pure () := rfl

theorem mute_removal (host : Host) (arguments : Arguments) (question : String)
    (removed : Disk → Log.Logged Disk) : (removal host arguments question removed).Mute := by
  apply (observes_confirm host arguments question).mute.bind
  intro wanted
  split
  · apply observes_disk.mute.bind
    intro disk
    exact (observes_tell _).mute.bind fun _ => mute_setDisk _
  · exact (observes_pure _).mute

theorem mute_dropArchive (host : Host) (arguments : Arguments) (app : App) :
    (dropArchive host arguments app).Mute := by
  rw [dropArchive_eq]
  split
  · exact mute_removal host arguments _ _
  · exact (observes_pure _).mute

theorem mute_cleanUp (host : Host) (arguments : Arguments) (app : App) :
    (cleanUp host arguments app).Mute := by
  rw [cleanUp_eq]
  split
  · exact mute_removal host arguments _ _
  · exact (observes_pure _).mute

/-- No tool prints anything. -/
def Host.Silent (host : Host) : Prop :=
  ∀ program words disk, (host.launch program words disk).printed = ""

theorem printed_decompile {host : Host} (silent : host.Silent) (binary : String) (disk : Disk)
    (app : App) : (app.decompile host.launch binary disk).value.printed = "" := by
  rw [App.decompile]
  split
  · rfl
  · next archive harchive =>
    show (Tool.decompile host.launch binary archive disk).value.printed = ""
    rw [Tool.decompile]
    split
    · exact silent binary _ disk
    · rfl

/-- Decompiling prints what the decompiler does. -/
theorem mute_decompile {host : Host} (silent : host.Silent) (settings : Settings) (app : App) :
    (decompile host settings app).Mute := by
  intro before
  apply printed_bind rfl
  intro disk hdisk
  apply printed_bind rfl
  intro attempt hattempt
  have hprinted : attempt.printed = "" := by
    rw [← Except.ok.inj hattempt]
    exact printed_decompile silent _ _ _
  apply printed_bind rfl
  intro
  rw [hprinted]
  intro hset
  exact (observes_orFail _).mute _

/-! ## Up to the report -/

/-- The steps of a run up to the decompiled tree that was read. -/
def prepare (host : Host) (arguments : Arguments) (path : Path) : Session (Settings × App) := do
  Session.say (.event (.started Report.version))
  let settings ← settle arguments
  let app ← open? path settings.parallel
  let app ← decompile host settings app
  dropArchive host arguments app
  let app ← readTree settings app
  return (settings, app)

/-- What a run has found out when it comes to the report. -/
structure Findings where
  settings : Settings
  app : App
  filtered : FilterReport
  deriving DecidableEq

/-- All steps of a run in front of the report. -/
def survey (host : Host) (arguments : Arguments) (path : Path) : Session Findings := do
  let (settings, app) ← prepare host arguments path
  listAll host arguments settings app
  let (app, filtered) ← sift arguments settings app
  return ⟨settings, app, filtered⟩

/-- What a run does with its findings. -/
def deliver (host : Host) (arguments : Arguments) (found : Findings) : Session Unit := do
  report host arguments found.settings found.app found.filtered
  cleanUp host arguments found.app
  closing arguments

theorem steps_eq (host : Host) (arguments : Arguments) (path : Path) :
    steps host arguments path =
      survey host arguments path >>= deliver host arguments := by
  simp only [steps, survey, prepare, bind_bind, pure_bind_eq, deliver]

/-- What `--list-all-files` prints about the tree on the disk. -/
def listing (host : Host) (arguments : Arguments) (found : Findings) (disk : Disk) : String :=
  if arguments.has .listAllFiles then
    Report.fileList host.color (some found.app.folder) Report.allTitle
      (Disassembly.sources (layoutOf found.settings) disk found.app.folder).value
  else ""

variable {host : Host} {arguments : Arguments} {before after : Disk} {printed : List Piece}

theorem yields_listAll {settings : Settings} {app : App} {u : Unit}
    (h : (listAll host arguments settings app).Yields before u after printed) :
    after = before ∧ printed =
      if arguments.has .listAllFiles then
        [.text (Report.fileList host.color (some app.folder) Report.allTitle
          (Disassembly.sources (layoutOf settings) before app.folder).value)]
      else [] := by
  rw [listAll] at h
  by_cases hlist : arguments.has .listAllFiles = true
  · rw [if_pos hlist] at h ⊢
    simp only [yields_bind_iff, yields_disk_iff, yields_tell_iff, yields_print_iff] at h
    obtain ⟨_, _, _, _, ⟨rfl, rfl, rfl⟩, rfl, _, _, _, _, ⟨rfl, rfl, rfl⟩, rfl, rfl, rfl⟩ := h
    exact ⟨rfl, rfl⟩
  · rw [if_neg hlist] at h ⊢
    obtain ⟨-, rfl, rfl⟩ := yields_pure_iff.mp h
    exact ⟨rfl, rfl⟩

theorem folder_filter (filter : Namespace.Filter) (package : Option String) (app : App) :
    (app.filter filter package).value.1.folder = app.folder := by
  rw [App.filter, Log.Logged.value_bind]
  show (if (filter.apply app.classes package).report.skipped then _ else _ :
    Log.Logged (App × FilterReport)).value.1.folder = _
  split <;> rfl

theorem folder_sift {settings : Settings} {app : App} {found : App × FilterReport}
    (h : (sift arguments settings app).Yields before found after printed) :
    found.1.folder = app.folder := by
  simp only [sift, yields_bind_iff, yields_tell_iff] at h
  obtain ⟨package, _, _, _, -, -, filter, _, _, _, -, -, rfl, -, -⟩ := h
  exact folder_filter filter package app

theorem mute_prepare (silent : host.Silent) (path : Path) :
    (prepare host arguments path).Mute := by
  apply (observes_say _).mute.bind
  intro
  apply (observes_settle arguments).mute.bind
  intro settings
  apply (observes_open? path settings.parallel).mute.bind
  intro app
  apply (mute_decompile silent settings app).bind
  intro app
  apply (mute_dropArchive host arguments app).bind
  intro
  apply (observes_readTree settings app).mute.bind
  exact fun app => (observes_pure _).mute

/-- Of all steps in front of the report, only the list of all files is printed, unless the
    decompiler prints something. -/
theorem printed_survey (silent : host.Silent) {path : Path} {found : Findings}
    (h : (survey host arguments path).Yields before found after printed) :
    printed = if arguments.has .listAllFiles then [.text (listing host arguments found after)]
      else [] := by
  simp only [survey, yields_bind_iff] at h
  obtain ⟨⟨settings, loaded⟩, _, _, _, hprepare, rfl, _, _, _, _, hlist, rfl, ⟨kept, filtered⟩,
    _, _, _, hsift, rfl, hpure⟩ := h
  obtain rfl := hprepare.printed_eq (mute_prepare silent path)
  obtain rfl := hsift.printed_eq (observes_sift arguments settings loaded).mute
  obtain rfl := hsift.disk_eq (observes_sift arguments settings loaded).keeps
  obtain ⟨rfl, hshown⟩ := yields_listAll hlist
  obtain ⟨rfl, rfl, rfl⟩ := yields_pure_iff.mp hpure
  -- filtering leaves the tree where it is
  have hfolder : kept.folder = loaded.folder := folder_sift hsift
  rw [hshown, listing, hfolder]
  split <;> rfl

/-! ## The report and what comes behind it -/

/-- The JSON report of a run, with what it is about. -/
def reporting (host : Host) (arguments : Arguments) (path : Path) :
    Session (Findings × Report.Json) := do
  let found ← survey host arguments path
  let files ← filesFor arguments found.settings found.app
  return (found, Report.document found.app found.filtered files (arguments.has .showMethods))

/-- What is done with a report that was made. -/
def issue (made : Report.Made) : Session Unit := do
  Session.setDisk made.disk
  if !made.printed.isEmpty then Session.print (.text made.printed)
  match made.written with
  | some path => Session.say (.written path)
  | none => return ()

theorem report_eq (host : Host) (arguments : Arguments) (settings : Settings) (app : App)
    (filtered : FilterReport) : report host arguments settings app filtered =
      filesFor arguments settings app >>= fun files => Session.disk >>= fun disk =>
        orFail (Report.make (reportOptions host arguments app) app filtered files disk) >>=
          issue := rfl

theorem yields_issue (made : Report.Made) (before : Disk) :
    (issue made).Yields before () made.disk
      (if made.printed.isEmpty then [] else [.text made.printed]) := by
  rcases made with ⟨text, written, disk⟩
  rw [issue]
  refine yields_bind_iff.mpr ⟨(), disk, [], _, yields_setDisk_iff.mpr ⟨rfl, rfl⟩, rfl, ?_⟩
  cases hempty : text.isEmpty <;> cases written <;> exact ⟨rfl, rfl, rfl⟩

theorem yields_report_iff {settings : Settings} {app : App} {filtered : FilterReport} {u : Unit} :
    (report host arguments settings app filtered).Yields before u after printed ↔
      ∃ files made, (filesFor arguments settings app before).result = .ok files ∧
        Report.make (reportOptions host arguments app) app filtered files before = .ok made ∧
        made.disk = after ∧
        (if made.printed.isEmpty then [] else [.text made.printed]) = printed := by
  have hfiles := observes_filesFor arguments settings app
  simp only [report_eq, yields_bind_iff, yields_disk_iff, yields_orFail_iff]
  constructor
  · rintro ⟨files, _, _, _, hyields, rfl, _, _, _, _, ⟨rfl, rfl, rfl⟩, rfl, made, _, _, _,
      ⟨hmade, rfl, rfl⟩, rfl, hissue⟩
    -- looking for the files is the only step in front, and it only looks
    obtain rfl := hyields.disk_eq hfiles.keeps
    obtain rfl := hyields.printed_eq hfiles.mute
    exact ⟨files, made, hyields.result, hmade, (yields_issue made _).disk.symm.trans hissue.disk,
      (yields_issue made _).printed.symm.trans hissue.printed⟩
  · rintro ⟨files, made, hresult, hmade, rfl, rfl⟩
    exact ⟨files, before, [], _, hfiles.yields hresult, rfl, before, before, [], _,
      ⟨rfl, rfl, rfl⟩, rfl, made, before, [], _, ⟨hmade, rfl, rfl⟩, rfl, yields_issue made before⟩

@[simp] theorem reportOptions_showMethods (host : Host) (arguments : Arguments) (app : App) :
    (reportOptions host arguments app).showMethods = arguments.has .showMethods := rfl

/-- The removal is wanted: it was confirmed beforehand, or is when it is asked for. -/
def Host.agrees (host : Host) (arguments : Arguments) (question : String) : Bool :=
  arguments.has .yes || (host.ask question).toOption.getD false

theorem result_confirm (host : Host) (arguments : Arguments) (question : String) (disk : Disk) :
    (confirm host arguments question disk).result = .ok (host.agrees arguments question) := by
  rw [confirm, Host.agrees]
  by_cases hyes : arguments.has .yes = true
  · rw [if_pos hyes, hyes]
    rfl
  · rw [if_neg hyes, Bool.eq_false_iff.mpr hyes, Bool.false_or]
    cases host.ask question with
    | ok answer => rfl
    | error reason => rfl

theorem yields_removal {question : String} {removed : Disk → Log.Logged Disk} {u : Unit}
    (h : (removal host arguments question removed).Yields before u after printed) :
    after = if host.agrees arguments question then (removed before).value else before := by
  rw [removal, yields_bind_iff] at h
  obtain ⟨wanted, _, _, _, hconfirm, rfl, hremove⟩ := h
  obtain rfl := hconfirm.eq_of_result (result_confirm host arguments question before)
  obtain rfl := hconfirm.disk_eq (observes_confirm host arguments question).keeps
  split at hremove
  · next hagrees =>
    simp only [yields_bind_iff, yields_disk_iff, yields_tell_iff, yields_setDisk_iff] at hremove
    obtain ⟨_, _, _, _, ⟨rfl, rfl, rfl⟩, rfl, _, _, _, _, ⟨rfl, rfl, rfl⟩, rfl, rfl, rfl⟩ := hremove
    rw [if_pos hagrees]
  · next hagrees =>
    obtain ⟨-, rfl, rfl⟩ := yields_pure_iff.mp hremove
    rw [if_neg hagrees]

/-- The run is to remove the decompiled tree at its end. -/
def cleansUp (host : Host) (arguments : Arguments) : Bool :=
  arguments.has .cleanup && host.agrees arguments "Delete the decompiled directory?"

theorem yields_cleanUp {app : App} {u : Unit}
    (h : (cleanUp host arguments app).Yields before u after printed) :
    after = if cleansUp host arguments then (before.removeTree app.folder).disk else before := by
  rw [cleanUp_eq] at h
  by_cases hcleanup : arguments.has .cleanup = true
  · rw [if_pos hcleanup] at h
    rw [cleansUp, hcleanup, Bool.true_and]
    exact yields_removal h
  · rw [if_neg hcleanup] at h
    obtain ⟨-, rfl, -⟩ := yields_pure_iff.mp h
    rw [cleansUp, Bool.eq_false_iff.mpr hcleanup, Bool.false_and]
    rfl

theorem observes_closing (hform : arguments.form = .json) : (closing arguments).Observes := by
  rw [closing, hform, if_neg (by simp)]
  exact observes_pure ()

/-! ## Removals and what comes behind the report do not fail -/

theorem completes_confirm (host : Host) (arguments : Arguments) (question : String) :
    (confirm host arguments question).Completes :=
  fun disk => ⟨_, result_confirm host arguments question disk⟩

theorem completes_removal (host : Host) (arguments : Arguments) (question : String)
    (removed : Disk → Log.Logged Disk) : (removal host arguments question removed).Completes := by
  apply (completes_confirm host arguments question).bind
  intro wanted
  split
  · apply completes_disk.bind
    intro disk
    exact (completes_tell _).bind fun _ => completes_setDisk _
  · exact completes_pure ()

theorem completes_cleanUp (host : Host) (arguments : Arguments) (app : App) :
    (cleanUp host arguments app).Completes := by
  rw [cleanUp_eq]
  split
  · exact completes_removal host arguments _ _
  · exact completes_pure ()

theorem completes_closing (arguments : Arguments) : (closing arguments).Completes := by
  rw [closing]
  split
  · exact (completes_print _).bind fun _ => completes_print _
  · exact completes_pure ()

/-- Once a report is made, it is delivered. -/
theorem exists_deliver {found : Findings} {files : List Path} {made : Report.Made}
    (hfiles : (filesFor arguments found.settings found.app before).result = .ok files)
    (hmake : Report.make (reportOptions host arguments found.app) found.app found.filtered files
      before = .ok made) :
    ∃ after more, (deliver host arguments found).Yields before () after more := by
  have hreport : (report host arguments found.settings found.app found.filtered).Yields before ()
      made.disk (if made.printed.isEmpty then [] else [.text made.printed]) :=
    yields_report_iff.mpr ⟨files, made, hfiles, hmake, rfl, rfl⟩
  -- the clean-up and the closing line cannot fail any more
  obtain ⟨u, hend⟩ := ((completes_cleanUp host arguments found.app).bind fun _ =>
    completes_closing arguments) made.disk
  exact ⟨_, _, hreport.bind (yields_of_ok hend)⟩

/-! ## Runs that succeed -/

theorem code_eq_zero_iff {ending : Ending} : ending.code = 0 ↔ ending = .done := by
  rcases ending with _ | ⟨_ | _⟩ | _ <;> simp [Ending.code]

theorem run_of_completions {words : List String} {shell : String} (disk : Disk)
    (hparse : parseArguments words = .ok arguments) (h : arguments.completions = some shell) :
    run host words disk = .plain .done disk [.text (Completion.script shell)] := by
  rw [run, hparse]
  simp only [h]

/-- A run that succeeds has found out what there is to report, and has delivered it. -/
theorem exists_findings {words : List String} {disk : Disk}
    (hparse : parseArguments words = .ok arguments) (h : arguments.completions = none)
    (hcode : (run host words disk).ending.code = 0) :
    ∃ path found tree shown more, arguments.path = some path ∧
      (survey host arguments path).Yields disk found tree shown ∧
      (deliver host arguments found).Yields tree () (run host words disk).disk more ∧
      shown ++ more = (run host words disk).printed := by
  rw [code_eq_zero_iff] at hcode
  cases hpath : arguments.path with
  | none =>
    simp only [run, hparse, h, hpath] at hcode
    cases hcode
  | some path =>
    have hrun : run host words disk = runSteps host arguments path disk := by
      simp only [run, hparse, h, hpath]
    rw [hrun] at hcode ⊢
    -- a run with the code 0 got to the end of its steps
    have hsteps : (steps host arguments path).Yields disk () (steps host arguments path disk).disk
        (steps host arguments path disk).printed := by
      refine ⟨?_, rfl, rfl⟩
      rw [runSteps] at hcode
      cases hresult : (steps host arguments path disk).result with
      | ok u => rfl
      | error failure =>
        rw [hresult] at hcode
        cases hcode
    rw [steps_eq, yields_bind_iff] at hsteps
    obtain ⟨found, tree, shown, more, hsurvey, hprinted, hdeliver⟩ := hsteps
    rw [← steps_eq] at hprinted hdeliver
    exact ⟨path, found, tree, shown, more, rfl, hsurvey, hdeliver, hprinted⟩

theorem run_of_yields {words : List String} {disk tree : Disk} {path : Path} {found : Findings}
    {shown more : List Piece} (hparse : parseArguments words = .ok arguments)
    (h : arguments.completions = none) (hpath : arguments.path = some path)
    (hsurvey : (survey host arguments path).Yields disk found tree shown)
    (hdeliver : (deliver host arguments found).Yields tree () after more) :
    (run host words disk).ending = .done ∧ (run host words disk).disk = after ∧
      (run host words disk).printed = shown ++ more := by
  have hrun : run host words disk = runSteps host arguments path disk := by
    simp only [run, hparse, h, hpath]
  have hsteps : (steps host arguments path).Yields disk () after (shown ++ more) := by
    rw [steps_eq]
    exact hsurvey.bind hdeliver
  rw [hrun, runSteps]
  refine ⟨?_, hsteps.disk, hsteps.printed⟩
  rw [hsteps.result]

/-- A run with a JSON report reports what there is to report. -/
theorem exists_report {found : Findings} {more : List Piece} {tree : Disk}
    (hform : arguments.form = .json)
    (h : (deliver host arguments found).Yields tree () after more) :
    ∃ files made, (filesFor arguments found.settings found.app tree).result = .ok files ∧
      Report.make (reportOptions host arguments found.app) found.app found.filtered files tree =
        .ok made ∧
      after = (if cleansUp host arguments then (made.disk.removeTree found.app.folder).disk
        else made.disk) ∧
      more = if made.printed.isEmpty then [] else [.text made.printed] := by
  simp only [deliver, yields_bind_iff] at h
  obtain ⟨_, _, _, _, hreport, rfl, _, _, _, _, hclean, rfl, hclosing⟩ := h
  -- from the end backwards: what the closing line and the clean-up leave alone
  obtain rfl := hclosing.disk_eq (observes_closing hform).keeps
  obtain rfl := hclosing.printed_eq (observes_closing hform).mute
  obtain rfl := hclean.printed_eq (mute_cleanUp host arguments found.app)
  obtain rfl := yields_cleanUp hclean
  obtain ⟨files, made, hfiles, hmade, rfl, rfl⟩ := yields_report_iff.mp hreport
  exact ⟨files, made, hfiles, hmade, rfl, by simp⟩

/-- The report of a run is the document made of the findings and of the files. -/
theorem result_reporting {path : Path} {disk tree : Disk} {found : Findings} {shown : List Piece}
    {files : List Path} (hsurvey : (survey host arguments path).Yields disk found tree shown)
    (hfiles : (filesFor arguments found.settings found.app tree).result = .ok files) :
    (reporting host arguments path disk).result = .ok (found,
      Report.document found.app found.filtered files (arguments.has .showMethods)) := by
  have hfiles' := (observes_filesFor arguments found.settings found.app).yields hfiles
  rw [reporting, bind_of_ok hsurvey.result, hsurvey.disk, bind_of_ok hfiles'.result]
  rfl

/-! ## A small run -/

/-- A host without tools, where nobody answers. -/
def Host.alone : Host :=
  ⟨fun _ _ disk => .failed .notFound disk, fun _ => .error "not a terminal", false⟩

theorem silent_alone : Host.alone.Silent := fun _ _ _ => rfl

/-- A disk with a decompiled tree that has one file in it, which is empty. -/
def sampleDisk : Disk :=
  .working ["work".toList] [("sample".toList, .folder
    [("smali".toList, .folder [("A.smali".toList, .file "".toUTF8 false)])])]

/-- The arguments of a run on this tree with a JSON report. -/
def sampleArguments (output : Option Path) (switches : List Switch) : Arguments :=
  { Arguments.none with
    path := some (.ofString "sample"), form := .json, output := output, switches := switches }

/-- What such a run finds out. -/
def sampleFindings : Findings :=
  ⟨.usual, { App.ofFolder (.ofString "sample") false with loaded := true }, .untouched 0⟩

/-- Once the report of such a run is made, the run succeeds, and nothing but the clean-up comes
    behind the report. -/
theorem run_sample {words : List String} {output : Option Path} {switches : List Switch}
    {made : Report.Made}
    (hparse : parseArguments words = .ok (sampleArguments output switches))
    (hsurvey : (survey .alone (sampleArguments output switches) (.ofString "sample")
      sampleDisk).result.toOption = some sampleFindings)
    (hdisk : (survey .alone (sampleArguments output switches) (.ofString "sample")
      sampleDisk).disk = sampleDisk)
    (hmade : Report.make (reportOptions .alone (sampleArguments output switches)
      sampleFindings.app) sampleFindings.app sampleFindings.filtered [] sampleDisk = .ok made) :
    (run .alone words sampleDisk).ending.code = 0 ∧
      (run .alone words sampleDisk).disk =
        if cleansUp .alone (sampleArguments output switches) then
          (made.disk.removeTree (.ofString "sample")).disk
        else made.disk := by
  have hfound : (survey .alone (sampleArguments output switches) (.ofString "sample")).Yields
      sampleDisk sampleFindings sampleDisk _ :=
    ⟨result_eq_of_toOption hsurvey, hdisk, rfl⟩
  have hfiles : (filesFor (sampleArguments output switches) sampleFindings.settings
      sampleFindings.app sampleDisk).result = .ok [] := by
    rw [filesFor, if_pos (by simp [sampleArguments])]
    rfl
  obtain ⟨after, more, hdeliver⟩ := exists_deliver hfiles hmade
  obtain ⟨hending, hafter, -⟩ := run_of_yields hparse rfl rfl hfound hdeliver
  refine ⟨code_eq_zero_iff.mpr hending, ?_⟩
  obtain ⟨files, made', hfiles', hmade', hend, -⟩ := exists_report rfl hdeliver
  obtain rfl : [] = files := Except.ok.inj (hfiles.symm.trans hfiles')
  obtain rfl : made = made' := Except.ok.inj (hmade.symm.trans hmade')
  rw [hafter, hend]
  rfl

end SmaliSieve.Cli
