import PostMarkup.Markdown.Cursor
import PostMarkup.Reference.Lookup

namespace PostMarkup.Markdown

/-- ASCII punctuation, all of which a backslash can escape. -/
def isAsciiPunctuation (c : Char) : Bool :=
  ('!' ≤ c && c ≤ '/') || (':' ≤ c && c ≤ '@') || ('[' ≤ c && c ≤ '\x60') ||
    ('\x7b' ≤ c && c ≤ '~')

/-- How often a character repeats at the head of a text. -/
def runLength (c : Char) (s : Text) : Nat := (s.takeWhile (· = c)).length

/-- A text without the blanks of a line at its end. -/
def trimLineEnd (s : Text) : Text := (s.reverse.dropWhile isLineBlank).reverse

/-- A thematic break: three or more of one mark, and blanks anywhere between them. -/
def isRule (s : Text) : Bool :=
  let line := restOfLine s
  match line with
  | c :: _ =>
    (c = '*' || c = '-' || c = '_') && line.all (fun d => d = c || d = ' ' || d = '\t') &&
      3 ≤ line.countP (· = c)
  | [] => false

/-- The level of a heading that number signs open. A blank or the end of the line follows them. -/
def headingLevel? (s : Text) : Option Nat :=
  let level := runLength '#' s
  if 1 ≤ level && level ≤ 6 && (s.drop level).head?.all isGap then some level else none

/-- The level that an underline gives to the paragraph above it. -/
def underlineLevel? (s : Text) : Option Nat :=
  match s with
  | c :: _ =>
    if (c = '=' || c = '-') && isBlankLine (s.dropWhile (· = c)) then
      some (if c = '=' then 1 else 2)
    else none
  | [] => none

/-- The mark and length of an opening fence. A fence of backticks has none in its info string, which
    goes on to the line feed. -/
def openingFence? (s : Text) : Option (Char × Nat) :=
  match s with
  | c :: _ =>
    let count := runLength c s
    if c = '\x60' && 3 ≤ count && (restToFeed (s.drop count)).all (· ≠ '\x60') then some (c, count)
    else if c = '~' && 3 ≤ count then some (c, count)
    else none
  | [] => none

/-- A closing fence is at least as long as the opening one, and only spaces follow it. -/
def closesFence (mark : Char) (count : Nat) (s : Text) : Bool :=
  count ≤ runLength mark s &&
    ((s.drop (runLength mark s)).dropWhile (· = ' ')).head?.all isLineEnd

/-- A list marker: its last character, the number of the item, and the column at which the item's
    content begins. -/
structure ListMarker where
  mark : Char
  number : Nat
  indent : Nat

/-- Where the content of an item begins. Spaces after the marker count, unless there are so many
    that the content is indented code, or nothing follows them. -/
def finishMarker (mark : Char) (number indent : Nat) (cursor : Cursor) :
    Option (ListMarker × Cursor) :=
  match cursor.takeSpaces 1 with
  | (taken, cursor) =>
    if taken = 0 && !cursor.atEnd then none
    else if isBlankLine cursor.rest then some (⟨mark, number, indent⟩, cursor)
    else
      match cursor.takeSpaces 4 with
      | (spaces, inner) =>
        if spaces < 4 then some (⟨mark, number, indent + spaces⟩, inner)
        else some (⟨mark, number, indent⟩, cursor)

/-- The list marker at a place that is indented by so many columns. -/
def listMarker? (indent : Nat) (cursor : Cursor) : Option (ListMarker × Cursor) :=
  match cursor.rest with
  | [] => none
  | c :: _ =>
    if c = '-' || c = '+' || c = '*' then
      if isRule cursor.rest then none else finishMarker c 0 (indent + 2) cursor.step
    else
      let digits := cursor.rest.takeWhile Char.isDigit
      match cursor.rest.dropWhile Char.isDigit with
      | mark :: _ =>
        if 1 ≤ digits.length && digits.length ≤ 9 && (mark = '.' || mark = ')') then
          finishMarker mark (Reference.decimalNumber digits) (indent + digits.length + 2)
            (cursor.skip (digits.length + 1))
        else none
      | [] => none

/-- An item that may end a paragraph: it is not blank, and its number, if it has one, is one. -/
def interruptsAsItem (s : Text) : Bool :=
  match listMarker? 0 { rest := s } with
  | some (marker, inner) =>
    !isBlankLine inner.rest && (marker.mark ≠ '.' && marker.mark ≠ ')' || marker.number = 1)
  | none => false

/-- How the cells of a column are aligned. -/
inductive Alignment
  | none
  | left
  | center
  | right
deriving DecidableEq

/-- The alignment that a cell of the delimiter row gives. Every cell but the last needs a hyphen. -/
def cellAlignment (cell : Text) : Alignment :=
  match cell.filter (· ≠ ' ') with
  | [] => .none
  | ':' :: rest => if rest.contains ':' then .center else .left
  | rest => if rest.contains ':' then .right else .none

/-- The cells between pipes, split at every pipe. -/
def splitPipes : Text → List Text
  | [] => [[]]
  | c :: s =>
    if c = '|' then [] :: splitPipes s
    else
      match splitPipes s with
      | cell :: cells => (c :: cell) :: cells
      | [] => [[c]]

/-- The alignments of a delimiter row: hyphens, colons, spaces and at least one pipe. -/
def delimiterRow? (s : Text) : Option (List Alignment) :=
  let s := restOfLine s
  let inner :=
    match s.dropWhile (· = ' ') with
    | '|' :: rest => rest
    | rest => rest
  let cells := splitPipes inner
  let columns := if (cells.getLast?.getD []).all (· = ' ') then cells.dropLast else cells
  if s.all (fun c => c = ' ' || c = '-' || c = ':' || c = '|') && s.contains '|' &&
      s.contains '-' && cells.dropLast.all (fun cell => cell.contains '-') then
    some (columns.map cellAlignment)
  else none

/-- A character reference in Markdown: its value, and how many characters follow its ampersand. It
    needs its semicolon. -/
def entity? (s : Text) : Option (Text × Nat) :=
  let number (limit : Nat) (isDigit : Char → Bool) (value : Text → Nat) (lead : Nat) (s : Text) :
      Option (Text × Nat) :=
    let digits := (s.take limit).takeWhile isDigit
    if digits.isEmpty || (s.drop digits.length).head? ≠ some ';' then none
    else
      let code := value digits
      let c :=
        if code = 0 || !code.isValidChar then Reference.replacementCharacter else Char.ofNat code
      some ([c], lead + digits.length + 1)
  match s with
  | '#' :: 'x' :: s => number 6 (fun c => (Reference.hexDigit? c).isSome) Reference.hexNumber 2 s
  | '#' :: 'X' :: s => number 6 (fun c => (Reference.hexDigit? c).isSome) Reference.hexNumber 2 s
  | '#' :: s => number 7 Char.isDigit Reference.decimalNumber 1 s
  | _ =>
    let name := s.takeWhile Reference.isNameCharacter
    if (s.drop name.length).head? = some ';' then
      (Reference.named? name).map fun text => (text, name.length + 1)
    else none

end PostMarkup.Markdown
