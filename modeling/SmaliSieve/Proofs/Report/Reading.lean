/-
  SmaliSieve.Proofs.Report.Reading

  What a JSON report says to those who read it.

  A report is decoded like any other JSON text, and what is decoded is taken for a report if it
  has the members of one and no others (`Reading.ofValue?`). Each part that is written is read as it
  was (`counts?_countsJson`, `filter?_filterJson`, `method?_methodJson`), and so is the report as a
  whole (`ofValue?_document`). The counts in it are then those of its own lists, because the lists
  of an application agree with each other and the report of a filter with the classes that are left
  (`readReport_jsonText`).
-/

import SmaliSieve.Proofs.App.Filtering
import SmaliSieve.Proofs.Json.RoundTrip
import SmaliSieve.Proofs.Tree.Writing
import SmaliSieve.Report.Output

namespace SmaliSieve.Report

open Namespace (Filter FilterReport)
open Smali

namespace Json.Value

variable {α : Type}

/-! ## Taking values apart -/

/-- A text. -/
def text? : Value → Option String
  | .string text => some text
  | _ => none

/-- A count: a number without a sign and without a fraction. -/
def count? : Value → Option Nat
  | .number q => if q.den = 1 ∧ 0 ≤ q.num then some q.num.toNat else none
  | _ => none

/-- What `read` makes of the value, or nothing for null. -/
def nullable? (read : Value → Option α) : Value → Option (Option α)
  | .null => some none
  | value => (read value).map some

/-- What `read` makes of the items of an array. -/
def items? (read : Value → Option α) : Value → Option (List α)
  | .array items => items.mapM read
  | _ => none

/-- The value is an object without members but those with these keys, none of them twice. -/
def hasOnly (keys : List String) : Value → Bool
  | .object members =>
    decide (members.map (·.1)).Nodup && members.all fun member => keys.contains member.1
  | _ => false

/-- The member of an object with this key. -/
def member? (key : String) : Value → Option Value
  | .object members => members.lookup key
  | _ => none

/-- What `read` makes of the member with this key. -/
def field? (key : String) (read : Value → Option α) (value : Value) : Option α :=
  (value.member? key).bind read

/-- What `read` makes of the member with this key, if there is such a member. -/
def optional? (key : String) (read : Value → Option α) (value : Value) : Option (Option α) :=
  match value.member? key with
  | none => some none
  | some member => (read member).map some

/-! ## What was written -/

@[simp] theorem text?_string (text : String) : (Json.string text).value.text? = some text := rfl

@[simp] theorem count?_number (n : Nat) : (Json.number n).value.count? = some n := by
  simp [value, count?]

@[simp] theorem nullable?_ofString? (text : Option String) :
    (Json.ofString? text).value.nullable? text? = some text := by
  cases text <;> rfl

@[simp] theorem nullable?_ofNat? (n : Option Nat) :
    (Json.ofNat? n).value.nullable? count? = some n := by
  cases n with
  | none => rfl
  | some n =>
    show ((Json.number n).value.count?).map some = _
    rw [count?_number, Option.map_some]

theorem items?_array {β : Type} {read : Value → Option β} {write : α → Json} {f : α → β}
    (h : ∀ a, read (write a).value = some (f a)) (items : List α) :
    (Json.array (items.map write)).value.items? read = some (items.map f) := by
  rw [value, items?, itemValues_eq_map]
  induction items with
  | nil => rfl
  | cons a rest ih =>
    rw [List.map_cons, List.map_cons, List.mapM_cons, h, ih]
    rfl

@[simp] theorem items?_strings (f : α → String) (items : List α) :
    (Json.array (items.map fun a => .string (f a))).value.items? text? = some (items.map f) :=
  items?_array (fun a => text?_string (f a)) items

@[simp] theorem hasOnly_object (keys : List String) (members : List (String × Json)) :
    (Json.object members).value.hasOnly keys =
      (decide (members.map (·.1)).Nodup && members.all fun member => keys.contains member.1) := by
  rw [value, hasOnly, memberValues_eq_map, List.map_map, List.all_map]
  rfl

theorem member?_object (key : String) (members : List (String × Json)) :
    (Json.object members).value.member? key = (members.lookup key).map Json.value := by
  rw [value, member?, memberValues_eq_map]
  induction members with
  | nil => rfl
  | cons member rest ih =>
    obtain ⟨first, json⟩ := member
    rw [List.map_cons, List.lookup_cons, List.lookup_cons, ih]
    cases key == first <;> rfl

@[simp] theorem field?_object (key : String) (read : Value → Option α)
    (members : List (String × Json)) :
    (Json.object members).value.field? key read =
      (members.lookup key).bind fun json => read json.value := by
  rw [field?, member?_object, Option.bind_map]
  rfl

@[simp] theorem optional?_object (key : String) (read : Value → Option α)
    (members : List (String × Json)) :
    (Json.object members).value.optional? key read =
      (members.lookup key).elim (some none) fun json => (read json.value).map some := by
  rw [optional?, member?_object]
  cases members.lookup key <;> rfl

end Json.Value

/-! ## Reports -/

open Json (Value decode)

/-- What a report says. -/
structure Reading where
  version : String
  counts : Counts
  filter : FilterReport
  files : List String
  classes : List String
  /-- The methods, if the report has them. -/
  methods : Option (List MethodRecord)
  deriving DecidableEq, Repr

namespace Reading

/-- The counts. -/
def counts? (value : Value) : Option Counts := do
  guard (value.hasOnly ["classes", "methods", "avg_methods_per_class"])
  return ⟨← value.field? "classes" Value.count?, ← value.field? "methods" Value.count?,
    ← value.field? "avg_methods_per_class" Value.count?⟩

/-- The filter passes. The package and the counts after the passes may be null, but they have to be
    there. -/
def filter? (value : Value) : Option FilterReport := do
  guard (value.hasOnly ["package", "start", "after_package", "after_system", "after_libraries"])
  return ⟨← value.field? "package" (Value.nullable? Value.text?),
    ← value.field? "start" Value.count?,
    ← value.field? "after_package" (Value.nullable? Value.count?),
    ← value.field? "after_system" (Value.nullable? Value.count?),
    ← value.field? "after_libraries" (Value.nullable? Value.count?)⟩

/-- A method. -/
def method? (value : Value) : Option MethodRecord := do
  guard (value.hasOnly ["class_name", "method_signature", "content"])
  return ⟨← value.field? "class_name" Value.text?, ← value.field? "method_signature" Value.text?,
    ← value.field? "content" Value.text?⟩

/-- The report. Its methods may be missing. -/
def ofValue? (value : Value) : Option Reading := do
  guard (value.hasOnly ["version", "summary", "filter", "files", "classes", "methods"])
  return ⟨← value.field? "version" Value.text?, ← value.field? "summary" counts?,
    ← value.field? "filter" filter?, ← value.field? "files" (Value.items? Value.text?),
    ← value.field? "classes" (Value.items? Value.text?),
    ← value.optional? "methods" (Value.items? method?)⟩

theorem counts?_countsJson (counts : Counts) : counts? (countsJson counts).value = some counts := by
  simp [countsJson, counts?, List.lookup_cons]

theorem filter?_filterJson (report : FilterReport) :
    filter? (filterJson report).value = some report := by
  simp [filterJson, filter?, List.lookup_cons]

theorem method?_methodJson (method : MethodRecord) :
    method? (methodJson method).value = some method := by
  simp [methodJson, method?, List.lookup_cons]

/-- The report on an application, as it is to be read. -/
def of (app : App) (report : FilterReport) (files : List Path) (withMethods : Bool) : Reading where
  version := Report.version
  counts := app.counts
  filter := report
  files := files.map Path.text
  classes := app.classes.map (·.className)
  methods := if withMethods then some app.methods else none

theorem methods_of_true (app : App) (report : FilterReport) (files : List Path) :
    (of app report files true).methods = some app.methods := rfl

theorem ofValue?_document (app : App) (report : FilterReport) (files : List Path)
    (withMethods : Bool) :
    ofValue? (document app report files withMethods).value =
      some (of app report files withMethods) := by
  have hmethods : (Json.array (app.methods.map methodJson)).value.items? method? =
      some app.methods := by
    rw [Value.items?_array (f := id) method?_methodJson, List.map_id]
  cases withMethods <;>
    simp [document, commonMembers, ofValue?, of, List.lookup_cons, hmethods, counts?_countsJson,
      filter?_filterJson]

end Reading

/-- What the text says, if it is a report. -/
def readReport (text : String) : Option Reading := (decode text).bind Reading.ofValue?

/-- A report is read as it was made, also where white space follows it. -/
theorem readReport_document (app : App) (report : FilterReport) (files : List Path)
    (withMethods : Bool) {spaces : String} (h : ∀ c ∈ spaces.toList, Json.isSpace c = true) :
    readReport ((document app report files withMethods).text ++ spaces) =
      some (.of app report files withMethods) := by
  rw [readReport, Json.decode_text _ h, Option.bind_some, Reading.ofValue?_document]

/-- The JSON report on an application that was filtered says what there is to say, whatever was done
    with the application before the filter was called and whatever is in its names and texts: the
    counts, all of the report on the filter, the files, the names of the classes in their order and,
    if they were asked for, the methods. What it says agrees with itself: the number of classes is
    that of the list of classes and the final count of the filter, and the number of methods is that
    of the list of methods. This text is what is printed, with a line feed behind it that changes
    nothing about what is read, or it is all there is in the file that was asked for, unless a
    device stands there and takes it in. -/
theorem readReport_jsonText (origin : App.Origin) (steps : List App.Step) (call : App.Call)
    (options : Options) (files : List Path) (disk : Disk) :
    let before := (origin.after steps).app
    let app := before.filtered call
    let report := before.reportOn call
    let text := jsonText options app report files
    let reading := Reading.of app report files options.showMethods
    readReport text = some reading ∧
      reading.counts.classes = reading.classes.length ∧
      reading.counts.classes = reading.filter.finalCount ∧
      (∀ methods, reading.methods = some methods → reading.counts.methods = methods.length) ∧
      (options.form = .json → options.output = none →
        make options app report files disk = .ok ⟨text ++ "\n", none, disk⟩ ∧
          readReport (text ++ "\n") = some reading) ∧
      ∀ path made, options.form = .json → options.output = some path →
        make options app report files disk = .ok made →
          made.disk.readText path = .ok text ∨ disk.TakesIn path ∧ made.disk = disk := by
  intro before app report text reading
  have hread : ∀ spaces : String, (∀ c ∈ spaces.toList, Json.isSpace c = true) →
      readReport (text ++ spaces) = some reading := fun _ =>
    readReport_document app report files options.showMethods
  -- the application holds what the filter left, and the final count is the number of that
  have hfinal : app.classes.length = report.finalCount := by
    show (before.filtered call).classes.length = (before.reportOn call).finalCount
    rw [App.reportOn_eq, Filter.finalCount_apply,
      App.classes_filtered (App.after_agrees origin steps)]
  refine ⟨?_, (List.length_map ..).symm, hfinal, ?_, ?_, ?_⟩
  · have hplain := hread "" (by simp)
    rwa [String.append_empty] at hplain
  · intro methods hmethods
    obtain ⟨-, hsome⟩ := Option.ite_none_right_eq_some.mp hmethods
    exact congrArg List.length (Option.some.inj hsome)
  · intro hform houtput
    refine ⟨?_, hread "\n" (List.forall_mem_singleton.mpr rfl)⟩
    rw [make, hform, houtput]
  · intro path made hform houtput hmade
    exact Disk.readText_write (make_json_written hform houtput hmade)

/-- A library is dropped, and the report goes to a file with the methods that are left, or it is
    printed. -/
theorem readReport_jsonText_mixedDisk :
    let path := Path.ofString "report.json"
    let options : Options := ⟨.json, some path, none, false, true, false⟩
    let before := ((App.Origin.folder (.ofString "app") true).after
      [⟨App.mixedDisk, .load .usual⟩]).app
    let call : App.Call := (Namespace.withoutAds, some "com.app")
    let app := before.filtered call
    let report := before.reportOn call
    let reading := Reading.of app report [] true
    ∃ made text,
      make options app report [] App.mixedDisk = .ok made ∧
      made.disk.readText path = .ok text ∧ readReport text = some reading ∧
      make { options with output := none } app report [] App.mixedDisk =
        .ok ⟨text ++ "\n", none, App.mixedDisk⟩ ∧
      readReport (text ++ "\n") = some reading ∧
      reading.counts.methods = app.methods.length := by
  intro path options before call app report reading
  -- whatever the report is, its file can be made beside the tree
  have hwrite : ∀ contents, ∃ written, App.mixedDisk.write path contents = .ok written :=
    fun _ => ⟨_, rfl⟩
  obtain ⟨written, hwritten⟩ := hwrite (jsonText options app report []).toUTF8
  have hmade : make options app report [] App.mixedDisk = .ok ⟨"", some path, written⟩ := by
    simp only [make, options, hwritten]
  obtain ⟨hread, -, -, hmethods, -, hfile⟩ :=
    readReport_jsonText (.folder (.ofString "app") true) [⟨App.mixedDisk, .load .usual⟩] call
      options [] App.mixedDisk
  obtain ⟨-, -, -, -, hprinted, -⟩ :=
    readReport_jsonText (.folder (.ofString "app") true) [⟨App.mixedDisk, .load .usual⟩] call
      { options with output := none } [] App.mixedDisk
  obtain ⟨hmade', hread'⟩ := hprinted rfl rfl
  have hnone : ¬ App.mixedDisk.TakesIn path := by
    rintro ⟨reading, hdevice⟩
    cases hdevice
  have hreport := (hfile path _ rfl rfl hmade).resolve_right fun htaken => hnone htaken.1
  exact ⟨_, _, hmade, hreport, hread, hmade', hread',
    hmethods _ (Reading.methods_of_true ..)⟩

end SmaliSieve.Report
