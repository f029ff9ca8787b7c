import PostMarkup.Attribute
import PostMarkup.Markdown.LineShape
import PostMarkup.Markdown.Passage

namespace PostMarkup.Markdown

/-- Text that is to be read as inline content. -/
structure Prose where
  passage : Passage
  /-- What comes after the passage in its block. Nothing begins there, but links and HTML may end
      there. -/
  after : Passage := []
  /-- The part of that which is shown as text. -/
  shown : Text := []
  /-- It is a text of its own. Otherwise it belongs to the end of the passage, and is lost unless
      that is text as well. -/
  separate : Bool := false
  /-- The text is a cell of a table, where pipes are escaped. -/
  inTable : Bool := false

/-- What the attribute block at the end of a heading gives the heading. -/
structure HeadingAttributes where
  id : Option Text := none
  classes : List Text := []
  others : List Attribute := []

/-- A block whose text has some form. -/
inductive Block (content : Type)
  /-- A paragraph, and whether the box before its text is ticked if it has one. A tight paragraph is
      written without tags. -/
  | paragraph (tight : Bool) (task : Option Bool) (text : content)
  | heading (level : Nat) (attributes : HeadingAttributes) (task : Option Bool) (text : content)
  /-- Indented or fenced code, and the first word of the info string. -/
  | code (language : Text) (text : Text)
  | html (text : Text)
  | rule
  | quote (inner : List (Block content))
  /-- A list of items, and the number of the first if it is numbered. -/
  | list (start : Option Nat) (items : List (Block content))
  | item (inner : List (Block content))
  /-- The box of an item that has no text. -/
  | task (done : Bool)
  | table (columns : List Alignment) (head : List content) (rows : List (List content))

namespace Block

variable {content : Type}

/-- A paragraph loses its tags; other blocks stay. -/
def tighten : Block content → Block content
  | paragraph _ box text => paragraph true box text
  | block => block

/-- The paragraphs right inside an item lose their tags. -/
def tightenItem : Block content → Block content
  | item inner => item (inner.map tighten)
  | block => block

end Block

end PostMarkup.Markdown
