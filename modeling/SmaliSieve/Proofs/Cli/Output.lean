/-
  SmaliSieve.Proofs.Cli.Output

  What a run with a JSON report writes to the standard output.

  It writes the report and a line feed, and, with `--list-all-files`, the list of all files
  in front of it (`stdout_of_json`). The list is in words, so that what is written is no
  report then (`fileList_append_ne_document`).
-/

import SmaliSieve.Cli.Wording
import SmaliSieve.Proofs.Cli.Unpacking

namespace SmaliSieve.Cli

open Namespace (FilterReport)
open Session

/-- All that is written to the standard output, in a run that took so many milliseconds. -/
def Outcome.stdout (outcome : Outcome) (color : Bool) (milliseconds : Nat) : String :=
  String.join (outcome.printed.map (Piece.shown color milliseconds))

/-! ## Lists and reports -/

theorem head?_fileList (color : Bool) (base : Option Path) (title : String) (files : List Path) :
    (Report.fileList color base title files).toList.head? = some '\n' := by
  simp [Report.fileList, Report.unlines, String.join_cons]

theorem head?_document (app : App) (filtered : FilterReport) (files : List Path)
    (withMethods : Bool) :
    (Report.document app filtered files withMethods).text.toList.head? = some '\x7b' := by
  rw [Report.document, Report.Json.text, String.toList_ofList, Report.Json.render,
    Report.Json.enclose]
  split <;> rfl

/-- With the list of all files in front of it, nothing that is written is a report. -/
theorem fileList_append_ne_document (color : Bool) (base : Option Path) (title : String)
    (listed : List Path) (rest : String) (app : App) (filtered : FilterReport) (files : List Path)
    (withMethods : Bool) :
    Report.fileList color base title listed ++ rest ≠
      (Report.document app filtered files withMethods).text ++ "\n" := by
  intro hsame
  have hhead := congrArg (fun text => text.toList.head?) hsame
  have hlist := head?_fileList color base title listed
  have hdocument := head?_document app filtered files withMethods
  simp only [String.toList_append, List.head?_append, hlist, hdocument] at hhead
  cases hhead

/-! ## Runs -/

variable {host : Host} {words : List String} {disk : Disk} {arguments : Arguments}

theorem printed_deliver {found : Findings} {tree after : Disk} {more : List Piece}
    (hform : arguments.form = .json) (houtput : arguments.output = none)
    (h : (deliver host arguments found).Yields tree () after more) :
    ∃ files, (filesFor arguments found.settings found.app tree).result = .ok files ∧
      more = [.text ((Report.document found.app found.filtered files
        (arguments.has .showMethods)).text ++ "\n")] := by
  obtain ⟨files, made, hfiles, hmade, -, hmore⟩ := exists_report hform h
  refine ⟨files, hfiles, ?_⟩
  have hprinted := Report.make_json_printed hform houtput hmade
  rw [Report.jsonText, reportOptions_showMethods] at hprinted
  have hfull : made.printed.isEmpty = false := by
    rw [hprinted]
    simp
  rw [hmore, hfull, if_neg Bool.false_ne_true, hprinted]

/-- What a run with a JSON report prints, piece by piece. -/
theorem printed_of_json (hparse : parseArguments words = .ok arguments)
    (hcompletions : arguments.completions = none) (hform : arguments.form = .json)
    (houtput : arguments.output = none) (silent : host.Silent)
    (hcode : (run host words disk).ending.code = 0) :
    ∃ path found document, arguments.path = some path ∧
      (reporting host arguments path disk).result = .ok (found, document) ∧
      (run host words disk).printed =
        (if arguments.has .listAllFiles then
          [.text (listing host arguments found (survey host arguments path disk).disk)]
        else []) ++ [.text (document.text ++ "\n")] := by
  obtain ⟨path, found, tree, shown, more, hpath, hsurvey, hdeliver, hprinted⟩ :=
    exists_findings hparse hcompletions hcode
  obtain ⟨files, hfiles, rfl⟩ := printed_deliver hform houtput hdeliver
  refine ⟨path, found, _, hpath, result_reporting hsurvey hfiles, ?_⟩
  rw [← hprinted, printed_survey silent hsurvey, hsurvey.disk]

theorem stdout_plain (ending : Ending) (text : String) (color : Bool) (milliseconds : Nat) :
    (Outcome.plain ending disk [.text text]).stdout color milliseconds = text := by
  simp [Outcome.stdout, Outcome.plain, Piece.shown, String.join_cons, String.join_nil]

theorem stdout_of_report (hparse : parseArguments words = .ok arguments)
    (hcompletions : arguments.completions = none) (hform : arguments.form = .json)
    (houtput : arguments.output = none) (silent : host.Silent)
    (hcode : (run host words disk).ending.code = 0) (milliseconds : Nat) :
    ∃ path found document, arguments.path = some path ∧
      (reporting host arguments path disk).result = .ok (found, document) ∧
      (run host words disk).stdout host.color milliseconds =
        listing host arguments found (survey host arguments path disk).disk ++
          document.text ++ "\n" := by
  obtain ⟨path, found, document, hpath, hreport, hprinted⟩ :=
    printed_of_json hparse hcompletions hform houtput silent hcode
  refine ⟨path, found, document, hpath, hreport, ?_⟩
  rw [Outcome.stdout, hprinted, listing]
  split
  · simp [Piece.shown, String.join_cons, String.join_nil, String.append_assoc]
  · simp [Piece.shown, String.join_cons, String.join_nil]

theorem stdout_ne_document (hparse : parseArguments words = .ok arguments)
    (hcompletions : arguments.completions = none) (hform : arguments.form = .json)
    (houtput : arguments.output = none) (silent : host.Silent)
    (hcode : (run host words disk).ending.code = 0) (hlist : arguments.has .listAllFiles = true)
    (milliseconds : Nat) (app : App) (filtered : FilterReport) (files : List Path)
    (withMethods : Bool) :
    (run host words disk).stdout host.color milliseconds ≠
      (Report.document app filtered files withMethods).text ++ "\n" := by
  obtain ⟨path, found, document, -, -, hstdout⟩ :=
    stdout_of_report hparse hcompletions hform houtput silent hcode milliseconds
  rw [hstdout, listing, if_pos hlist, String.append_assoc]
  exact fileList_append_ne_document _ _ _ _ _ _ _ _ _

/-- A run that succeeds and reports in JSON writes its report and a line feed to the standard
    output, and the list of all files in front of that if the list is asked for. It writes
    nothing else, so without the list it writes the report only, and with it no report at all.
    A run that is asked for completions writes those and reports nothing. -/
theorem stdout_of_json (hparse : parseArguments words = .ok arguments)
    (hform : arguments.form = .json) (houtput : arguments.output = none) (silent : host.Silent)
    (hcode : (run host words disk).ending.code = 0) (milliseconds : Nat) :
    (∃ shell, arguments.completions = some shell ∧
      (run host words disk).stdout host.color milliseconds = Completion.script shell) ∨
    ∃ path found document, arguments.completions = none ∧ arguments.path = some path ∧
      (reporting host arguments path disk).result = .ok (found, document) ∧
      (run host words disk).stdout host.color milliseconds =
        listing host arguments found (survey host arguments path disk).disk ++
          document.text ++ "\n" ∧
      (arguments.has .listAllFiles = false →
        (run host words disk).stdout host.color milliseconds = document.text ++ "\n") ∧
      (arguments.has .listAllFiles = true → ∀ app filtered files withMethods,
        (run host words disk).stdout host.color milliseconds ≠
          (Report.document app filtered files withMethods).text ++ "\n") := by
  cases hcompletions : arguments.completions with
  | some shell =>
    refine .inl ⟨shell, rfl, ?_⟩
    rw [run_of_completions disk hparse hcompletions, stdout_plain]
  | none =>
    obtain ⟨path, found, document, hpath, hreport, hstdout⟩ :=
      stdout_of_report hparse hcompletions hform houtput silent hcode milliseconds
    refine .inr ⟨path, found, document, rfl, hpath, hreport, hstdout, fun hlist => ?_, ?_⟩
    · rw [hstdout, listing, if_neg (Bool.eq_false_iff.mp hlist), String.empty_append]
    · exact fun hlist => stdout_ne_document hparse hcompletions hform houtput silent hcode hlist
        milliseconds

/-- The report of the sample alone. -/
theorem stdout_of_json_sample :
    let words := ["sample", "--format", "json"]
    parseArguments words = .ok (sampleArguments none []) ∧ Host.alone.Silent ∧
      (run .alone words sampleDisk).ending.code = 0 ∧
      ∃ found document,
        (reporting .alone (sampleArguments none []) (.ofString "sample") sampleDisk).result =
          .ok (found, document) ∧
        (run .alone words sampleDisk).stdout Host.alone.color 0 = document.text ++ "\n" := by
  intro words
  have hparse : parseArguments words = .ok (sampleArguments none []) := rfl
  have hcode : (run .alone words sampleDisk).ending.code = 0 :=
    (run_sample hparse (by decide +kernel) (disk_survey_of_isFolder rfl) rfl).1
  refine ⟨hparse, silent_alone, hcode, ?_⟩
  rcases stdout_of_json hparse rfl rfl silent_alone hcode 0 with
    ⟨shell, hshell, -⟩ | ⟨path, found, document, -, hpath, hreport, -, hstdout, -⟩
  · cases hshell
  · obtain rfl : .ofString "sample" = path := Option.some.inj hpath
    exact ⟨found, document, hreport, hstdout rfl⟩

/-- With the list of all files asked for, what the run writes to the standard output is no
    report, although it succeeds and reports in JSON. -/
theorem stdout_ne_document_sample :
    let words := ["sample", "--format", "json", "--list-all-files"]
    parseArguments words = .ok (sampleArguments none [.listAllFiles]) ∧ Host.alone.Silent ∧
      (run .alone words sampleDisk).ending.code = 0 ∧
      ¬ ∃ app filtered files withMethods,
        (run .alone words sampleDisk).stdout Host.alone.color 0 =
          (Report.document app filtered files withMethods).text ++ "\n" := by
  intro words
  have hparse : parseArguments words = .ok (sampleArguments none [.listAllFiles]) := rfl
  have hcode : (run .alone words sampleDisk).ending.code = 0 :=
    (run_sample hparse (by decide +kernel) (disk_survey_of_isFolder rfl) rfl).1
  refine ⟨hparse, silent_alone, hcode, ?_⟩
  rintro ⟨app, filtered, files, withMethods, hsame⟩
  exact stdout_ne_document hparse rfl rfl rfl silent_alone hcode rfl 0 _ _ _ _ hsame

end SmaliSieve.Cli
