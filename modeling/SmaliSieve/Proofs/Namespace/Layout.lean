/-
  SmaliSieve.Proofs.Namespace.Layout

  A list of namespaces as it is written to a file.

  `Line` is a line of such a file: an entry with white space around it, or white space alone, and
  the way the line ends. Whatever the lines are, reading the file gives the entries that were
  written, in their order (`parse_fileOf`). This rests on two facts about the entries in a text:

    * a line feed parts them (`entriesIn_append`), so that a file can be read line by line;
    * white space in front of a line or behind it makes no difference (`entriesIn_padded`), even
      if there are line feeds in it, since blank lines hold no entry. The carriage return of a
      line end is white space as well.

  What is read from a text can be written like that (`Entry`), since it was cut out between line
  feeds and trimmed.
-/

import Mathlib.Data.List.Basic
import SmaliSieve.Namespace.PrefixList
import SmaliSieve.Proofs.Text.Cutting

namespace SmaliSieve.Namespace.PrefixList

open Text (isBlank)

/-! ## Files -/

/-- How a line ends. -/
inductive LineEnd where
  | feed
  | returnAndFeed
  deriving DecidableEq, Repr

/-- What is written at the end of the line. -/
def LineEnd.chars : LineEnd → List Char
  | feed => ['\n']
  | returnAndFeed => ['\r', '\n']

/-- A line as it is written, with an entry or without one. -/
structure Line where
  /-- The white space in front. -/
  lead : List Char
  entry : Option String
  /-- The white space behind. -/
  trail : List Char
  ending : LineEnd
  lead_blank : lead.all isBlank := by decide
  trail_blank : trail.all isBlank := by decide

/-- The line without its end. -/
def Line.chars (line : Line) : List Char :=
  line.lead ++ ((line.entry.elim [] String.toList) ++ line.trail)

/-- The entries that are written in the lines. -/
def writtenIn (lines : List Line) : List String := lines.filterMap (·.entry)

/-- The lines one after the other. The last one has a line end only if the file is `closed`. -/
def charsOf (closed : Bool) : List Line → List Char
  | [] => []
  | [line] => line.chars ++ if closed then line.ending.chars else []
  | line :: more => line.chars ++ (line.ending.chars ++ charsOf closed more)

/-- The text of the file with these lines. -/
def fileOf (lines : List Line) (closed : Bool) : String := String.ofList (charsOf closed lines)

/-- What can be an entry: a text that is not empty, has no white space at its ends and no line
    feed. -/
structure Entry (entry : String) : Prop where
  ne_empty : entry ≠ ""
  head : ∀ c, entry.toList.head? = some c → isBlank c = false
  last : ∀ c, entry.toList.getLast? = some c → isBlank c = false
  feedless : '\n' ∉ entry.toList

theorem Entry.toList_ne_nil {entry : String} (h : Entry entry) : entry.toList ≠ [] := by
  simpa using h.ne_empty

theorem Entry.trim_toList {entry : String} (h : Entry entry) :
    Text.trim entry.toList = entry.toList :=
  Text.trim_eq_self (List.head?_eq_some_head h.toList_ne_nil)
    (List.getLast?_eq_some_getLast h.toList_ne_nil)
    (h.head _ (List.head?_eq_some_head h.toList_ne_nil))
    (h.last _ (List.getLast?_eq_some_getLast h.toList_ne_nil))

/-! ## One line -/

theorem entryOf?_blank {line : List Char} (h : ∀ c ∈ line, isBlank c = true) :
    entryOf? line = none := by
  rw [entryOf?, Text.trim_eq_nil_iff.mpr h]
  rfl

theorem entryOf?_padded {lead trail : List Char} (hlead : ∀ c ∈ lead, isBlank c = true)
    (htrail : ∀ c ∈ trail, isBlank c = true) {entry : String} (h : Entry entry) :
    entryOf? (lead ++ (entry.toList ++ trail)) = some entry := by
  rw [entryOf?, ← List.append_assoc, Text.trim_append hlead htrail h.trim_toList]
  simp [h.ne_empty]

theorem entryOf?_cons_blank {c : Char} (h : isBlank c = true) (line : List Char) :
    entryOf? (c :: line) = entryOf? line := by
  rw [entryOf?, entryOf?, Text.trim, Text.trim, List.dropWhile_cons_of_pos h]

theorem entryOf?_dropReturn (line : List Char) :
    entryOf? (Text.dropReturn line) = entryOf? line := by
  rw [entryOf?, entryOf?, Text.trim_dropReturn]

/-- What a line holds can be an entry, if the line was cut out between line feeds. -/
theorem entry_of_entryOf? {line : List Char} (hfeed : '\n' ∉ line) {entry : String}
    (h : entryOf? line = some entry) : Entry entry := by
  rw [entryOf?] at h
  split at h
  · cases h
  · next hne =>
    obtain rfl := Option.some.inj h
    refine ⟨fun hempty => hne ?_, fun c hc => ?_, fun c hc => ?_, fun hmem => hfeed ?_⟩
    · simpa using hempty
    · rw [String.toList_ofList] at hc
      exact Text.head?_trim hc
    · rw [String.toList_ofList] at hc
      exact Text.getLast?_dropEndWhile hc
    · rw [String.toList_ofList] at hmem
      exact Text.mem_of_mem_trim hmem

/-! ## Entries in a text -/

/-- The entries in the text between the line feeds. -/
def entriesIn (text : List Char) : List String :=
  (Text.segments '\n' text).filterMap entryOf?

/-- It makes no difference that a carriage return can belong to the end of a line, and that
    nothing behind the last line feed is no line. -/
theorem filterMap_lines (text : List Char) :
    (Text.lines text).filterMap entryOf? = entriesIn text := by
  obtain ⟨before, last, hpieces⟩ : ∃ before last, Text.segments '\n' text = before ++ [last] :=
    ⟨_, _, (List.dropLast_concat_getLast (Text.segments_ne_nil '\n' text)).symm⟩
  have hlast : ([last].filter (· ≠ [])).filterMap entryOf? = [last].filterMap entryOf? := by
    by_cases h : last = []
    · subst h
      rfl
    · simp [h]
  rw [Text.lines, entriesIn, hpieces, List.dropLast_concat, List.getLast?_concat,
    Option.toList_some, List.filterMap_append, List.filterMap_append, hlast, List.filterMap_map]
  congr 2
  funext line
  exact entryOf?_dropReturn line

theorem entries_parse (text : String) : (parse text).entries = entriesIn text.toList :=
  filterMap_lines text.toList

theorem entriesIn_append (a b : List Char) :
    entriesIn (a ++ '\n' :: b) = entriesIn a ++ entriesIn b := by
  rw [entriesIn, Text.segments_append, List.filterMap_append]
  rfl

theorem entriesIn_of_feedless {line : List Char} (h : '\n' ∉ line) :
    entriesIn line = (entryOf? line).toList := by
  rw [entriesIn, Text.segments_eq_singleton h, List.filterMap_cons]
  cases entryOf? line <;> rfl

theorem entriesIn_blank_append {lead : List Char} (h : ∀ c ∈ lead, isBlank c = true)
    (text : List Char) : entriesIn (lead ++ text) = entriesIn text := by
  induction lead with
  | nil => rfl
  | cons c lead ih =>
    obtain ⟨hc, hlead⟩ := List.forall_mem_cons.mp h
    rw [List.cons_append, ← ih hlead]
    by_cases hfeed : c = '\n'
    · subst hfeed
      rw [entriesIn, Text.segments_cons_mark]
      rfl
    · obtain ⟨piece, more, hseg, hcons⟩ := Text.segments_cons_ne hfeed (lead ++ text)
      rw [entriesIn, entriesIn, hcons, hseg, List.filterMap_cons, List.filterMap_cons,
        entryOf?_cons_blank hc]

theorem entriesIn_blank {blanks : List Char} (h : ∀ c ∈ blanks, isBlank c = true) :
    entriesIn blanks = [] := by
  have hnil := entriesIn_blank_append h []
  rwa [List.append_nil] at hnil

/-- Nothing is added by the white space behind an entry. -/
theorem entriesIn_entry_append {trail : List Char} (h : ∀ c ∈ trail, isBlank c = true)
    {entry : String} (hentry : Entry entry) : entriesIn (entry.toList ++ trail) = [entry] := by
  have hline : ∀ blanks, (∀ c ∈ blanks, isBlank c = true) → '\n' ∉ blanks →
      entriesIn (entry.toList ++ blanks) = [entry] := by
    intro blanks hblanks hfeed
    have hpadded := entryOf?_padded (List.forall_mem_nil _) hblanks hentry
    rw [List.nil_append] at hpadded
    rw [entriesIn_of_feedless (by simp [hentry.feedless, hfeed]), hpadded, Option.toList_some]
  by_cases hfeed : '\n' ∈ trail
  · -- the line of the entry ends at the first line feed, and blank lines follow
    obtain ⟨front, back, rfl, hfront⟩ := List.eq_append_cons_of_mem hfeed
    rw [List.forall_mem_append, List.forall_mem_cons] at h
    rw [← List.append_assoc, entriesIn_append, hline front h.1 hfront, entriesIn_blank h.2.2]
    rfl
  · exact hline trail h hfeed

/-- White space around an entry, or alone. -/
theorem entriesIn_padded {lead trail : List Char} (hlead : ∀ c ∈ lead, isBlank c = true)
    (htrail : ∀ c ∈ trail, isBlank c = true) {entry : Option String}
    (h : ∀ text, entry = some text → Entry text) :
    entriesIn (lead ++ (entry.elim [] String.toList ++ trail)) = entry.toList := by
  rw [entriesIn_blank_append hlead]
  cases entry with
  | none => exact entriesIn_blank htrail
  | some text => exact entriesIn_entry_append htrail (h text rfl)

/-! ## Files that are read -/

theorem eq_iff_entries {first second : PrefixList} :
    first = second ↔ first.entries = second.entries := by
  cases first
  cases second
  rw [mk.injEq]

theorem Line.entriesIn_chars {line : Line} (h : ∀ text, line.entry = some text → Entry text) :
    entriesIn line.chars = line.entry.toList :=
  entriesIn_padded (List.all_eq_true.mp line.lead_blank) (List.all_eq_true.mp line.trail_blank) h

/-- A line of a file is read before the rest. -/
theorem Line.entriesIn_append {line : Line} (h : ∀ text, line.entry = some text → Entry text)
    (rest : List Char) :
    entriesIn (line.chars ++ (line.ending.chars ++ rest)) =
      line.entry.toList ++ entriesIn rest := by
  cases line.ending with
  | feed => exact (PrefixList.entriesIn_append _ rest).trans (by rw [line.entriesIn_chars h])
  | returnAndFeed =>
    have htrail : ∀ c ∈ line.trail ++ ['\r'], isBlank c = true := by
      rw [List.forall_mem_append, List.forall_mem_singleton]
      exact ⟨List.all_eq_true.mp line.trail_blank, by decide⟩
    have hchars : line.chars ++ (LineEnd.returnAndFeed.chars ++ rest) =
        (line.lead ++ (line.entry.elim [] String.toList ++ (line.trail ++ ['\r']))) ++
          '\n' :: rest := by
      simp [Line.chars, LineEnd.chars]
    rw [hchars, PrefixList.entriesIn_append,
      entriesIn_padded (List.all_eq_true.mp line.lead_blank) htrail h]

theorem entriesIn_charsOf (closed : Bool) {lines : List Line}
    (h : ∀ entry ∈ writtenIn lines, Entry entry) :
    entriesIn (charsOf closed lines) = writtenIn lines := by
  induction lines with
  | nil => rfl
  | cons line more ih =>
    have hwritten : writtenIn (line :: more) = line.entry.toList ++ writtenIn more := by
      rw [writtenIn, List.filterMap_cons]
      cases line.entry <;> rfl
    rw [hwritten, List.forall_mem_append] at h
    have hline : ∀ text, line.entry = some text → Entry text := by
      intro text htext
      exact h.1 text (by rw [htext]; exact List.mem_singleton_self text)
    rw [hwritten, ← ih h.2]
    cases more with
    | nil =>
      cases closed with
      | false =>
        show entriesIn (line.chars ++ []) = line.entry.toList ++ []
        rw [List.append_nil, List.append_nil, line.entriesIn_chars hline]
      | true =>
        have hclosed := line.entriesIn_append hline []
        rwa [List.append_nil] at hclosed
    | cons next more => exact line.entriesIn_append hline _

/-- What is read from a file is what was written to it. -/
theorem entries_parse_fileOf {lines : List Line} (closed : Bool)
    (h : ∀ entry ∈ writtenIn lines, Entry entry) :
    (parse (fileOf lines closed)).entries = writtenIn lines := by
  rw [entries_parse, fileOf, String.toList_ofList, entriesIn_charsOf closed h]

theorem entries_ofLines {lines : List Line} (h : ∀ entry ∈ writtenIn lines, Entry entry) :
    (ofLines (lines.map fun line => String.ofList line.chars)).entries = writtenIn lines := by
  rw [ofLines, writtenIn, List.filterMap_map]
  apply List.filterMap_congr
  intro line hline
  show entryOf? (String.ofList line.chars).toList = line.entry
  rw [String.toList_ofList, Line.chars]
  have hlead := List.all_eq_true.mp line.lead_blank
  have htrail := List.all_eq_true.mp line.trail_blank
  cases hentry : line.entry with
  | none =>
    apply entryOf?_blank
    rw [List.forall_mem_append]
    exact ⟨hlead, htrail⟩
  | some entry =>
    exact entryOf?_padded hlead htrail (h entry (List.mem_filterMap.mpr ⟨line, hline, hentry⟩))

/-- The lines of a text, one by one, give the list that the text gives. -/
theorem ofLines_lines (text : String) :
    ofLines ((Text.lines text.toList).map String.ofList) = parse text := by
  rw [ofLines, parse, List.filterMap_map]
  congr 2
  funext line
  exact congrArg entryOf? (String.toList_ofList)

theorem entry_of_mem_parse {text entry : String} (h : entry ∈ (parse text).entries) :
    Entry entry := by
  rw [entries_parse] at h
  obtain ⟨piece, hpiece, hentry⟩ := List.mem_filterMap.mp h
  exact entry_of_entryOf? (Text.not_mem_of_mem_segments hpiece) hentry

/-- What is read from a text can be written again, and comes back as it was: with any white space
    around the entries, blank lines anywhere, line feeds alone or behind carriage returns, and
    with or without a line end at the end of the file. The lines give the same list one by one, as
    they were written and as they are read. Any list of entries can be written so. -/
theorem parse_fileOf (text : String) :
    (∀ entry ∈ (parse text).entries, Entry entry) ∧
      (∀ (lines : List Line) (closed : Bool), writtenIn lines = (parse text).entries →
        parse (fileOf lines closed) = parse text ∧
          ofLines (lines.map fun line => String.ofList line.chars) = parse text ∧
          ofLines ((Text.lines (fileOf lines closed).toList).map String.ofList) = parse text) ∧
      ∀ (lines : List Line) (closed : Bool), (∀ entry ∈ writtenIn lines, Entry entry) →
        (parse (fileOf lines closed)).entries = writtenIn lines := by
  have hentries : ∀ entry ∈ (parse text).entries, Entry entry := fun _ => entry_of_mem_parse
  refine ⟨hentries, fun lines closed hwritten => ?_, fun lines => entries_parse_fileOf⟩
  have hproper : ∀ entry ∈ writtenIn lines, Entry entry := by rwa [hwritten]
  have hparse : parse (fileOf lines closed) = parse text := by
    rw [eq_iff_entries, entries_parse_fileOf closed hproper, hwritten]
  have hlines : ofLines (lines.map fun line => String.ofList line.chars) = parse text := by
    rw [eq_iff_entries, entries_ofLines hproper, hwritten]
  exact ⟨hparse, hlines, (ofLines_lines _).trans hparse⟩

/-- Two entries, one with a carriage return and one with a space in it, between blank lines of
    several kinds. -/
def untidyLines : List Line :=
  [{ lead := ['\u3000'], entry := none, trail := ['\t'], ending := .returnAndFeed },
   { lead := ['\t', ' '], entry := some "x\ry", trail := ['\r'], ending := .feed },
   { lead := ['\n'], entry := none, trail := [' '], ending := .feed },
   { lead := ['\x0b'], entry := some "c d", trail := ['\u00a0', '\n'], ending := .feed }]

/-- The entries of a text, written another time without any tidiness, are read as before. -/
theorem parse_fileOf_untidyLines :
    let text := "x\ry\n\n c d"
    writtenIn untidyLines = (parse text).entries ∧
      (∀ entry ∈ writtenIn untidyLines, Entry entry) ∧
      fileOf untidyLines false =
        "\u3000\t\r\n\t x\ry\r\n\n \n\x0bc d\u00a0\n" ∧
      (parse (fileOf untidyLines false)).entries = ["x\ry", "c d"] ∧
      parse (fileOf untidyLines false) = parse text := by
  intro text
  obtain ⟨hentries, hagain, hany⟩ := parse_fileOf text
  have hwritten : writtenIn untidyLines = (parse text).entries := by decide
  have hproper : ∀ entry ∈ writtenIn untidyLines, Entry entry := by rwa [hwritten]
  exact ⟨hwritten, hproper, by decide, hany untidyLines false hproper,
    (hagain untidyLines false hwritten).1⟩

end SmaliSieve.Namespace.PrefixList
