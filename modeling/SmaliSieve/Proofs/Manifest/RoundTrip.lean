/-
  SmaliSieve.Proofs.Manifest.RoundTrip

  A manifest as it is written, and the package that is read from it.

  `Sheet` is everything that a manifest can hold besides the package: what stands in front of the
  root element, the other attributes of its tag, the layout of the tag and what stands behind it.
  Nothing is asked of what stands behind the tag, and nothing of the attributes behind the
  package, which are never read; those in front of it have keys of their own.

  Whatever the sheet, the package that was written is the one that is read
  (`parsePackage_text`). On the way the text is

    * `firstTag?_text` — passed over up to the tag of the root element, not one in a comment,
      which is then read up to its own end, not one in a value;
    * `packageOfTag_content` — searched for the package, whose value is read without its
      references and without the white space around it.
-/

import Mathlib.Data.List.Infix
import SmaliSieve.Manifest.Package
import SmaliSieve.Proofs.Xml.Written

namespace SmaliSieve.Manifest

open Xml

/-- A manifest but for its package. -/
structure Sheet where
  /-- What stands in front of the root element. -/
  prolog : List Misc
  /-- The attributes in front of the package. -/
  before : List Written
  /-- The layout of the attribute with the package. -/
  spacing : Spacing
  /-- The white space in front of the package, within the quotes. -/
  lead : List Char
  /-- The white space behind the package, within the quotes. -/
  trail : List Char
  /-- The attributes behind the package. -/
  behind : List Written
  /-- The white space at the end of the tag. -/
  space : List Char
  /-- The root element is empty. -/
  isEmpty : Bool
  /-- What stands behind the tag. -/
  rest : List Char
  key_ne : ∀ written ∈ before, written.key ≠ packageKey := by decide
  distinct : (before.map (·.key)).Nodup := by decide
  lead_blank : lead.all Text.isBlank := by decide
  trail_blank : trail.all Text.isBlank := by decide
  space_isSpace : space.all isSpace := by decide

namespace Sheet

variable (sheet : Sheet)

/-- The value of the attribute with the package. -/
def value (package : String) : List Char :=
  sheet.lead ++ (escape package.toList ++ sheet.trail)

theorem quote_not_mem_value (package : String) : sheet.spacing.quote ∉ sheet.value package := by
  have hquote : Text.isBlank sheet.spacing.quote = false := by
    rcases sheet.spacing.isQuote with h | h <;> rw [h] <;> decide
  rw [value, List.mem_append, List.mem_append, not_or, not_or]
  exact ⟨Text.not_mem_of_blank (List.all_eq_true.mp sheet.lead_blank) hquote,
    quote_not_mem_escape sheet.spacing.isQuote package.toList,
    Text.not_mem_of_blank (List.all_eq_true.mp sheet.trail_blank) hquote⟩

/-- The attribute with the package. -/
def named (package : String) : Written :=
  { sheet.spacing with
    key := packageKey
    value := sheet.value package
    quote_not_mem := sheet.quote_not_mem_value package }

/-- The attributes of the root element. -/
def attributes (package : String) : List Char :=
  sheet.before.flatMap Written.chars ++
    ((sheet.named package).chars ++ (sheet.behind.flatMap Written.chars ++ sheet.space))

/-- What stands between `<` and `>` of the root element. -/
def content (package : String) : List Char :=
  rootName ++ sheet.attributes package ++ if sheet.isEmpty then ['/'] else []

/-- The manifest with its package. -/
def text (package : String) : String :=
  String.ofList (sheet.prolog.flatMap Misc.chars ++
    '<' :: (sheet.content package ++ '>' :: sheet.rest))

/-! ## The tag of the root element -/

/-- There is no byte order mark, since a manifest starts with white space or markup. -/
theorem dropByteOrderMark_prolog (prolog : List Misc) (rest : List Char) :
    dropByteOrderMark (prolog.flatMap Misc.chars ++ '<' :: rest) =
      prolog.flatMap Misc.chars ++ '<' :: rest := by
  have hhead : ∀ c ∈ (prolog.flatMap Misc.chars ++ '<' :: rest).head?, c ≠ '\uFEFF' := by
    induction prolog with
    | nil => simp
    | cons misc prolog ih =>
      rw [List.flatMap_cons, List.append_assoc]
      cases misc with
      | comment text h => simp [Misc.chars]
      | instruction text h => simp [Misc.chars]
      | blank text h =>
        cases text with
        | nil => exact ih
        | cons c text =>
          rintro d hd rfl
          obtain rfl : c = '\uFEFF' := by simpa [Misc.chars] using hd
          exact absurd (List.all_eq_true.mp h _ List.mem_cons_self) (by decide)
  rw [dropByteOrderMark]
  intro more heq
  rw [heq] at hhead
  exact hhead _ rfl rfl

/-- No part of the tag ends it. -/
theorem crossed_content (package : String) : Crossed (sheet.content package) := by
  have hroot : Crossed rootName := crossed_plain (by decide)
  have hbefore : Crossed (sheet.before.flatMap Written.chars) :=
    crossed_flatMap fun written _ => written.crossed
  have hbehind : Crossed (sheet.behind.flatMap Written.chars) :=
    crossed_flatMap fun written _ => written.crossed
  have hslash : Crossed (if sheet.isEmpty then ['/'] else []) := by
    split
    · exact crossed_plain (by decide)
    · exact crossed_nil
  exact (hroot.append (hbefore.append ((sheet.named package).crossed.append
    (hbehind.append (crossed_space sheet.space_isSpace))))).append hslash

/-- The first tag of a manifest is the one of its root element. -/
theorem firstTag?_text (package : String) :
    firstTag? (dropByteOrderMark (sheet.text package).toList) =
      .ok (some (sheet.content package)) := by
  rw [text, String.toList_ofList, dropByteOrderMark_prolog, firstTag?_prolog]
  exact firstTag?_tag (by decide) (sheet.crossed_content package) sheet.rest

/-! ## The package -/

theorem ofContent_content (package : String) :
    StartTag.ofContent (sheet.content package) = ⟨rootName ++ sheet.attributes package⟩ := by
  have hwritten : ∀ written : Written, written.chars.getLast? ≠ some '/' := by
    intro written
    rw [written.getLast?_chars]
    rcases written.isQuote with h | h <;> rw [h] <;> decide
  have hflat : ∀ list : List Written, (list.flatMap Written.chars).getLast? ≠ some '/' := by
    intro list
    induction list with
    | nil => simp
    | cons written list ih => exact getLast?_append_ne (hwritten written) ih
  have hspace : sheet.space.getLast? ≠ some '/' := by
    intro hlast
    exact absurd (List.all_eq_true.mp sheet.space_isSpace _ (List.mem_of_getLast? hlast))
      (by decide)
  exact ofContent_append (getLast?_append_ne (by decide) (getLast?_append_ne (hflat sheet.before)
    (getLast?_append_ne (hwritten _) (getLast?_append_ne (hflat sheet.behind) hspace))))
    sheet.isEmpty

theorem exists_attributes_cons (package : String) :
    ∃ c more, isSpace c = true ∧ sheet.attributes package = c :: more := by
  rw [attributes]
  cases sheet.before with
  | nil =>
    obtain ⟨c, more, hc, hchars⟩ := (sheet.named package).exists_cons
    exact ⟨c, _, hc, by rw [hchars]; rfl⟩
  | cons first before =>
    obtain ⟨c, more, hc, hchars⟩ := first.exists_cons
    exact ⟨c, _, hc, by rw [List.flatMap_cons, hchars]; rfl⟩

theorem unescape_value (package : String) :
    unescape (sheet.value package) = .ok (sheet.lead ++ (package.toList ++ sheet.trail)) := by
  have hamp : Text.isBlank '&' = false := by decide
  have hlead := readAs_self (Text.not_mem_of_blank (List.all_eq_true.mp sheet.lead_blank) hamp)
  have htrail := readAs_self (Text.not_mem_of_blank (List.all_eq_true.mp sheet.trail_blank) hamp)
  exact unescape_of_readAs (hlead.append ((readAs_escape package.toList).append htrail))

theorem name_and_attributes (package : String) :
    (StartTag.mk (rootName ++ sheet.attributes package)).name = rootName ∧
      (StartTag.mk (rootName ++ sheet.attributes package)).attributeText =
        sheet.attributes package :=
  name_and_attributeText (by decide) (sheet.exists_attributes_cons package)

/-- The value of the package is found behind the attributes with other keys. -/
theorem value_content (package : String) :
    (StartTag.mk (rootName ++ sheet.attributes package)).value packageKey =
      .ok (some (sheet.value package)) := by
  have hkey : (sheet.named package).key = packageKey := rfl
  rw [StartTag.value, (sheet.name_and_attributes package).2, attributes]
  exact findValue_written hkey sheet.key_ne sheet.distinct _ (fun _ _ => rfl) _

/-- What is read from the tag is the value without references and without white space. -/
theorem packageOfTag_content {package : String} (hne : package ≠ "")
    (htrim : Text.trim package.toList = package.toList) :
    packageOfTag (.ofContent (sheet.content package)) = .ok (some package.toList) := by
  have hvalue : Text.trim (sheet.lead ++ (package.toList ++ sheet.trail)) = package.toList := by
    rw [← List.append_assoc]
    exact Text.trim_append (List.all_eq_true.mp sheet.lead_blank)
      (List.all_eq_true.mp sheet.trail_blank) htrim
  have hnil : package.toList.isEmpty = false := by simpa using hne
  rw [ofContent_content, packageOfTag, if_pos (sheet.name_and_attributes package).1, value_content]
  simp only [bind, Except.bind, unescape_value, hvalue, hnil]
  rfl

end Sheet

/-- The package that a manifest was written with is the one that is read. -/
theorem parsePackage_text (sheet : Sheet) {package : String} (hne : package ≠ "")
    (hfirst : package.toList.head?.all (!Text.isBlank ·))
    (hlast : package.toList.getLast?.all (!Text.isBlank ·)) :
    parsePackage (sheet.text package) = .ok (some package) := by
  have hlist : package.toList ≠ [] := by simpa using hne
  have hhead := List.head?_eq_some_head hlist
  have hend := List.getLast?_eq_some_getLast hlist
  rw [hhead, Option.all_some] at hfirst
  rw [hend, Option.all_some] at hlast
  have htrim : Text.trim package.toList = package.toList :=
    Text.trim_eq_self hhead hend (by simpa using hfirst) (by simpa using hlast)
  rw [parsePackage, sheet.firstTag?_text]
  simp only [bind, Except.bind, sheet.packageOfTag_content hne htrim]
  simp [pure, Except.pure]

/-- A manifest with other tags and other packages in a comment, in a value and in the key of an
    attribute. -/
def Sheet.lookAlikes : Sheet where
  prolog := [.instruction "xml version=\"1.0\"".toList (by decide) (by decide),
    .blank "\n".toList (by decide),
    .comment " <manifest package=\"a\"> ".toList (by decide)]
  before := [
    { gap := "\n ".toList
      beforeSign := " ".toList
      afterSign := []
      quote := '"'
      key := "android:package".toList
      value := "b\x27/>".toList }]
  spacing :=
    { gap := " ".toList
      beforeSign := []
      afterSign := "\t".toList
      quote := '\x27' }
  lead := "\u3000".toList
  trail := []
  behind := []
  space := " ".toList
  isEmpty := true
  rest := "<".toList

/-- Only the package itself is found, and its references are read. -/
theorem parsePackage_text_lookAlikes :
    let package := "c\x27&.d"
    package ≠ "" ∧ package.toList.head?.all (!Text.isBlank ·) ∧
      package.toList.getLast?.all (!Text.isBlank ·) ∧
      Sheet.lookAlikes.text package =
        "<?xml version=\"1.0\"?>\n<!-- <manifest package=\"a\"> -->" ++
        "<manifest\n android:package =\"b\x27/>\" package=\t\x27\u3000c&apos;&amp;.d\x27 /><" ∧
      parsePackage (Sheet.lookAlikes.text package) = .ok (some package) := by
  intro package
  have hne : package ≠ "" := by decide
  have hfirst : package.toList.head?.all (!Text.isBlank ·) := by decide
  have hlast : package.toList.getLast?.all (!Text.isBlank ·) := by decide
  exact ⟨hne, hfirst, hlast, by decide, parsePackage_text Sheet.lookAlikes hne hfirst hlast⟩

end SmaliSieve.Manifest
