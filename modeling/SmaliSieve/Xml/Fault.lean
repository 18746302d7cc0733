/-
  SmaliSieve.Xml.Fault

  What can be wrong with a document, as far as it is read: the markup in front of the
  root element, the attributes of its tag, and the references in an attribute's value.
-/

import SmaliSieve.Text.Search

namespace SmaliSieve.Xml

/-- White space between the parts of markup. -/
def isSpace (c : Char) : Bool :=
  c = ' ' || c = '\t' || c = '\n' || c = '\r'

/-- What a character reference can get wrong. -/
inductive NumberFault where
  /-- The digits start with a sign. -/
  | sign
  /-- There are no digits. -/
  | empty
  /-- A character is no digit of the radix. -/
  | digit
  /-- The number does not fit 32 bits. -/
  | large
  /-- The number is zero. -/
  | zero
  /-- The number is no code point of a character. -/
  | codepoint (n : Nat)
  deriving DecidableEq, Repr

/-- The words for a faulty character reference. -/
def NumberFault.message : NumberFault → String
  | sign => "unexpected number sign"
  | empty => "cannot parse integer from empty string"
  | digit => "invalid digit found in string"
  | large => "number too large to fit in target type"
  | zero => "0x0 character is not permitted in XML"
  | codepoint n => s!"`{n}` is not a valid codepoint"

/-- What a document can get wrong. Positions are byte offsets: of attributes in the text
    between `<` and `>`, of references in the attribute's value. -/
inductive XmlFault where
  | referenceNotClosed
  | unknownMarkup
  | commentNotClosed
  | cdataNotClosed
  | doctypeNotClosed
  | doctypeWithoutName
  | instructionNotClosed
  | tagNotClosed
  /-- An end tag, where no element is open. -/
  | strayEndTag (name : List Char)
  /-- No `=` follows the key of an attribute. -/
  | keyWithoutSign (position : Nat)
  /-- The key of an attribute was used before. -/
  | repeatedKey (position previous : Nat)
  /-- Nothing follows the `=`. -/
  | valueMissing (position : Nat)
  /-- The value does not start with a quote. -/
  | valueUnquoted (position : Nat)
  /-- The quote that the value starts with does not come again. -/
  | quoteMissing (position : Nat) (quote : Char)
  /-- A `&` in a value without `;`. -/
  | ampersandNotClosed (start stop : Nat)
  /-- An entity that is not predefined. -/
  | unknownEntity (start stop : Nat) (name : List Char)
  /-- A faulty character reference. -/
  | number (fault : NumberFault)
  deriving DecidableEq, Repr

/-- The words for a faulty document. -/
def XmlFault.message : XmlFault → String
  | referenceNotClosed =>
    "ill-formed document: entity or character reference not closed: `;` not found before end of input"
  | unknownMarkup => "syntax error: unknown or missed symbol in markup"
  | commentNotClosed => "syntax error: comment not closed: `-->` not found before end of input"
  | cdataNotClosed => "syntax error: CDATA not closed: `]]>` not found before end of input"
  | doctypeNotClosed => "syntax error: DOCTYPE not closed: `>` not found before end of input"
  | doctypeWithoutName =>
    "ill-formed document: `<!DOCTYPE>` declaration does not contain a name of a document type"
  | instructionNotClosed =>
    "syntax error: processing instruction or xml declaration not closed: `?>` not found before end of input"
  | tagNotClosed => "syntax error: tag not closed: `>` not found before end of input"
  | strayEndTag name =>
    s!"ill-formed document: close tag `</{String.ofList name}>` does not match any open tag"
  | keyWithoutSign position =>
    s!"position {position}: attribute key must be directly followed by `=` or space"
  | repeatedKey position previous =>
    s!"position {position}: duplicated attribute, previous declaration at position {previous}"
  | valueMissing position =>
    s!"position {position}: `=` must be followed by an attribute value"
  | valueUnquoted position =>
    s!"position {position}: attribute value must be enclosed in `\"` or `\x27`"
  | quoteMissing position quote =>
    s!"position {position}: missing closing quote `{quote}` in attribute value"
  | ampersandNotClosed start stop =>
    s!"Error while escaping character at range {start}..{stop}: Cannot find \x27;\x27 after \x27&\x27"
  | unknownEntity start stop name =>
    s!"at {start}..{stop}: unrecognized entity `{String.ofList name}`"
  | number fault => s!"invalid character reference: {fault.message}"

end SmaliSieve.Xml
