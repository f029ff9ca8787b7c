import PostMarkup.Attribute
import PostMarkup.Reference.Lookup

namespace PostMarkup.Html

/-- What an HTML text is read as. End tags are read like start tags, with all that is in them. -/
inductive Token
  /-- Decoded characters. One text node may come in several of these. -/
  | text (s : Text)
  /-- The character U+0000 in ordinary text. -/
  | null
  | startTag (name : Text) (attributes : List Attribute) (selfClosing : Bool)
  | endTag (name : Text) (attributes : List Attribute) (selfClosing : Bool)
  | comment (content : Text)
  | documentType
  /-- A fault of the text just before what comes next. A fault inside a tag is not reported. -/
  | parseError
deriving DecidableEq

/-- How the content of an element is read that is not ordinary markup. -/
inductive ContentModel
  /-- Script, in which a comment can hide an end tag. -/
  | script
  /-- Nothing but the end tag is recognised. -/
  | rawText
  /-- Character references are recognised as well. -/
  | escapableText
deriving DecidableEq

/-- The elements that are not read as ordinary markup. -/
def contentModel? (name : Text) : Option ContentModel :=
  match String.ofList name with
  | "script" => some .script
  | "style" | "xmp" | "iframe" | "noembed" | "noframes" => some .rawText
  | "textarea" | "title" => some .escapableText
  | _ => none

/-- Outside ordinary text U+0000 is read as the replacement character. -/
def visible (c : Char) : Char := if c = '\x00' then Reference.replacementCharacter else c

end PostMarkup.Html
