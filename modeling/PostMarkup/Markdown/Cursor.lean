import PostMarkup.Text.Basic

namespace PostMarkup.Markdown

/-- Blanks within a line. -/
def isLineBlank (c : Char) : Bool := c = ' ' || c = '\t' || c = '\x0b' || c = '\x0c'

/-- What lines end in. -/
def isLineEnd (c : Char) : Bool := c = '\n' || c = '\r'

/-- A blank or a line end. -/
def isGap (c : Char) : Bool := isLineBlank c || isLineEnd c

/-- What is left of a line, without its end. -/
def restOfLine (s : Text) : Text := s.takeWhile fun c => !isLineEnd c

/-- The end of a line, from where its text is over. -/
def endOfLine : Text → Text
  | '\r' :: '\n' :: _ => ['\r', '\n']
  | c :: _ => if isLineEnd c then [c] else []
  | [] => []

/-- How many characters are left of a line, its end among them. -/
def lineLength (s : Text) : Nat :=
  let line := restOfLine s
  line.length + (endOfLine (s.drop line.length)).length

/-- Nothing to see is left of the line. -/
def isBlankLine (s : Text) : Bool := (s.dropWhile isLineBlank).head?.all isLineEnd

/-- What is left of a line that only a line feed ends, the line feed among it. Code and HTML are
    copied by such lines. -/
def restToFeed : Text → Text
  | [] => []
  | c :: s => if c = '\n' then [c] else c :: restToFeed s

/-- A line as it is copied: without a carriage return right before its last byte, which is the line
    feed if it has one. -/
def copyLine (line : Text) : Text :=
  match line.reverse with
  | last :: '\r' :: before => if last.utf8Size = 1 then (last :: before).reverse else line
  | _ => line

/-- A place in a line: what is left of the document, the characters of the line that are behind,
    those of them since the last tab, and the columns of that tab that are not used up. -/
structure Cursor where
  rest : Text
  passed : Nat := 0
  width : Nat := 0
  pending : Nat := 0

namespace Cursor

/-- Nothing of the line is left. A tab in parts does not count. -/
def atEnd (cursor : Cursor) : Bool := cursor.rest.head?.all isLineEnd

/-- The place after some characters. -/
def skip (cursor : Cursor) (count : Nat) : Cursor :=
  { cursor with
    rest := cursor.rest.drop count, passed := cursor.passed + count, width := cursor.width + count }

/-- The place after the next character. -/
def step (cursor : Cursor) : Cursor := cursor.skip 1

/-- Takes up to so many columns of spaces and tabs, and tells how many there were. -/
def takeSpaces : Nat → Cursor → Nat × Cursor
  | 0, cursor => (0, cursor)
  | count + 1, cursor =>
    let taken (next : Cursor) : Nat × Cursor :=
      let (more, last) := takeSpaces count next
      (more + 1, last)
    match cursor.pending, cursor.rest with
    | pending + 1, _ => taken { cursor with pending := pending }
    | 0, ' ' :: _ => taken cursor.step
    | 0, '\t' :: rest => taken ⟨rest, cursor.passed + 1, 0, 3 - cursor.width % 4⟩
    | 0, _ => (0, cursor)

/-- The place after all spaces and tabs. -/
def skipSpaces (cursor : Cursor) : Cursor :=
  cursor.skip (cursor.rest.takeWhile fun c => c = ' ' || c = '\t').length

/-- The rest of the line as it is copied into code or HTML; what is left of a tab becomes spaces. -/
def copied (cursor : Cursor) : Text :=
  List.replicate cursor.pending ' ' ++ copyLine (restToFeed cursor.rest)

/-- How many characters the line has up to its end, or up to its line feed. -/
def lineLength (cursor : Cursor) : Nat := cursor.passed + Markdown.lineLength cursor.rest

/-- How many characters there are from the beginning of the line up to the next line feed. -/
def feedLength (cursor : Cursor) : Nat := cursor.passed + (restToFeed cursor.rest).length

end Cursor

end PostMarkup.Markdown
