import PostMarkup.Attribute

namespace PostMarkup.Dialect

/-- One step of reading. Running text comes a character at a time, so where a stretch of text is cut
    cannot matter. -/
inductive Event
  | character (c : Char)
  /-- A character or entity reference, by what stands between `&` and `;`. -/
  | reference (name : Text)
  /-- The content of a CDATA section. -/
  | literal (content : Text)
  | startTag (name : Text) (attributes : List Attribute)
  /-- A start tag that is its own end tag. -/
  | emptyTag (name : Text) (attributes : List Attribute)
  | endTag (name : Text)
  /-- A comment, instruction, declaration or document type, in its written form. -/
  | directive (written : Text)
deriving DecidableEq

/-- Markup that the end of the input cuts off. -/
inductive Construct
  | instruction
  | declaration
  | comment
  | documentType
  | literal
  | tag
  /-- A quoted stretch of a tag, with its quote. -/
  | quoted (quote : Char)
deriving DecidableEq

/-- Why reading stops. -/
inductive Fault
  | unknownMarkup
  | unclosed (construct : Construct)
  | unclosedReference
  | namelessDocumentType
  | strayEndTag (name : Text)
  | mismatchedEndTag (expected found : Text)
deriving DecidableEq

namespace Construct

/-- What is missing where the input ends. -/
def message : Construct → Text
  | instruction =>
    "processing instruction not closed: \x60?>\x60 not found before end of input".toList
  | declaration => "XML declaration not closed: \x60?>\x60 not found before end of input".toList
  | comment => "comment not closed: \x60-->\x60 not found before end of input".toList
  | documentType => "DOCTYPE not closed: \x60>\x60 not found before end of input".toList
  | literal => "CDATA not closed: \x60]]>\x60 not found before end of input".toList
  | tag => "tag not closed: \x60>\x60 not found before end of input".toList
  | quoted quote =>
    "attribute value not closed: \x60".toList ++ quote ::
      "\x60 not found before end of input".toList

end Construct

namespace Fault

/-- Faults of spelling are told from faults of structure. -/
def message : Fault → Text
  | unknownMarkup => "syntax error: unknown or missed symbol in markup".toList
  | unclosed construct => "syntax error: ".toList ++ construct.message
  | unclosedReference =>
    ("ill-formed document: entity or character reference not closed: \x60;\x60 not found before " ++
      "end of input").toList
  | namelessDocumentType =>
    ("ill-formed document: \x60<!DOCTYPE>\x60 declaration does not contain a name of a " ++
      "document type").toList
  | strayEndTag name =>
    "ill-formed document: close tag \x60</".toList ++ name ++
      ">\x60 does not match any open tag".toList
  | mismatchedEndTag expected found =>
    "ill-formed document: expected \x60</".toList ++ expected ++ ">\x60, but \x60</".toList ++
      found ++ ">\x60 was found".toList

end Fault

end PostMarkup.Dialect
