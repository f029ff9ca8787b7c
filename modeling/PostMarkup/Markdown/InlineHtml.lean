import PostMarkup.Markdown.Pieces
import PostMarkup.Text.Escape

namespace PostMarkup.Markdown

/-- Hides everything that could end a quoted value or begin markup. -/
def escapeQuoted (s : Text) : Text :=
  s.flatMap fun
    | '<' => "&lt;".toList
    | '>' => "&gt;".toList
    | '&' => "&amp;".toList
    | '"' => "&quot;".toList
    | '\'' => "&#39;".toList
    | c => [c]

/-- A character that stands for itself in an address. Percent signs do, so that what is encoded
    already stays as it is. -/
def isAddressCharacter (c : Char) : Bool := c.isAlphanum || "!#$%()*+,-./:;=?@_~".toList.contains c

/-- A byte as a percent sign and two digits. -/
def percentByte (byte : UInt8) : Text :=
  let digit (n : Nat) : Char := (Nat.digitChar n).toUpper
  ['%', digit (byte.toNat / 16), digit (byte.toNat % 16)]

/-- An address for a quoted value. -/
def escapeAddress (s : Text) : Text :=
  s.flatMap fun c =>
    if isAddressCharacter c then [c]
    else if c = '&' then "&amp;".toList
    else if c = '\'' then "&#x27;".toList
    else (String.utf8EncodeChar c).flatMap percentByte

/-- A title, if there is one. -/
def titleHtml (title : Text) : Text :=
  if title.isEmpty then [] else " title=\"".toList ++ escapeQuoted title ++ ['"']

/-- An element with its content. -/
def element (name : String) (content : Text) : Text :=
  '<' :: name.toList ++ '>' :: content ++ '<' :: '/' :: name.toList ++ ['>']

def Styling.tag : Styling → String
  | emphasis => "em"
  | strong => "strong"
  | deleted => "del"

/-- A link to an address that is written out. -/
def Address.html : Address → Text
  | web text =>
    "<a href=\"".toList ++ escapeAddress text ++ "\">".toList ++ escapeText text ++ "</a>".toList
  | mail text =>
    "<a href=\"mailto:".toList ++ escapeAddress text ++ "\">".toList ++ escapeText text ++
      "</a>".toList

namespace Inline

mutual

/-- What is said instead of an image: its text without any markup. -/
def plain : Inline → Text
  | text s | code s | html s => s
  | softBreak | hardBreak _ => [' ']
  | styled _ content | link _ content | image _ content => plainAll content
  | autolink (.web address) | autolink (.mail address) => address

/-- The text of some content. -/
def plainAll : List Inline → Text
  | [] => []
  | inline :: rest => plain inline ++ plainAll rest

end

mutual

/-- Inline content as HTML. -/
def toHtml : Inline → Text
  | text s => escapeText s
  | code s => element "code" (escapeText s)
  | html s => s
  | softBreak => ['\n']
  | hardBreak _ => "<br />\n".toList
  | styled styling content => element styling.tag (toHtmlAll content)
  | link target content =>
    "<a href=\"".toList ++ escapeAddress target.destination ++ ['"'] ++ titleHtml target.title ++
      ['>'] ++ toHtmlAll content ++ "</a>".toList
  | image target content =>
    "<img src=\"".toList ++ escapeAddress target.destination ++ "\" alt=\"".toList ++
      escapeQuoted (plainAll content) ++ ['"'] ++ titleHtml target.title ++ " />".toList
  | autolink address => address.html

/-- Some inline content as HTML. -/
def toHtmlAll : List Inline → Text
  | [] => []
  | inline :: rest => toHtml inline ++ toHtmlAll rest

end

end Inline

end PostMarkup.Markdown
