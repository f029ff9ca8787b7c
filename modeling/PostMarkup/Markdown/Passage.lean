import PostMarkup.Markdown.Cursor

namespace PostMarkup.Markdown

/-- A character of a passage. -/
structure Glyph where
  char : Char
  /-- The container marks after it. Only the end of a line has any. -/
  marks : Text := []
  /-- The line after it is indented less than the item that it still belongs to. -/
  short : Bool := false
deriving DecidableEq

/-- A text in which marks may stand between the lines. -/
abbrev Passage := List Glyph

/-- A line of a passage. -/
structure PassageLine where
  /-- The container marks before its text. -/
  marks : Text := []
  /-- It is indented less than the item that it still belongs to. -/
  short : Bool := false
  text : Text
  /-- The line end after its text. -/
  ending : Text := []

namespace Passage

/-- A passage without marks. -/
def ofText (s : Text) : Passage := s.map fun c => { char := c }

/-- A passage as it is read. -/
def text (passage : Passage) : Text := passage.map Glyph.char

/-- A passage as it stands in the document. -/
def source (passage : Passage) : Text := passage.flatMap fun glyph => glyph.char :: glyph.marks

@[simp]
theorem text_ofText (s : Text) : (ofText s).text = s := by
  simp [text, ofText, Function.comp_def]

/-- Nothing is added to a text that has no marks in it. -/
@[simp]
theorem source_ofText (s : Text) : (ofText s).source = s := by
  induction s with
  | nil => rfl
  | cons c s ih => simpa [source, ofText] using ih

/-- The end of a line, with the marks of the line after it. -/
def lineEnd (ending : Text) (next : PassageLine) : Passage :=
  ofText ending.dropLast ++
    ending.getLast?.toList.map fun c => { char := c, marks := next.marks, short := next.short }

/-- The passage that some lines make. The last line goes without its end. -/
def ofLines : List PassageLine → Passage
  | [] => []
  | [line] => ofText line.text
  | line :: next :: rest => ofText line.text ++ lineEnd line.ending next ++ ofLines (next :: rest)

/-- How many characters of a passage are touched by so many characters of its source. -/
def touchedBy : Nat → Passage → Nat
  | 0, _ => 0
  | _, [] => 0
  | count + 1, glyph :: rest => touchedBy (count - glyph.marks.length) rest + 1

/-- The spaces and tabs at the head of a passage. -/
def indentation (passage : Passage) : Nat :=
  (passage.takeWhile fun glyph => glyph.char = ' ' || glyph.char = '\t').length

end Passage

end PostMarkup.Markdown
