import PostMarkup.Markdown.LineShape

namespace PostMarkup.Markdown

/-- The parts of a row between its pipes, given whether the next character is escaped. If
    backslashes go in pairs, the first of two escapes the second; otherwise any of them escapes a
    pipe. -/
def splitRow (inPairs : Bool) : Bool → Text → List Text
  | _, [] => [[]]
  | escaped, c :: s =>
    if c = '|' && !escaped then [] :: splitRow inPairs false s
    else
      match splitRow inPairs (c = '\\' && !(inPairs && escaped)) s with
      | cell :: cells => (c :: cell) :: cells
      | [] => [[c]]

/-- The cells of a row. A pipe at either end of the row is only its border. -/
def rowCells (s : Text) : List Text :=
  let inner := if s.head? = some '|' then s.tail else s
  let parts := splitRow false false inner
  let cells := if (parts.getLast?.getD []).all isLineBlank then parts.dropLast else parts
  cells.map fun cell => trimLineEnd (cell.dropWhile isLineBlank)

/-- How many columns a head has that its pipes part like this. -/
def headColumns (parts : List Text) : Nat :=
  let isBorder (part : Option Text) : Nat := if part.any (·.all isLineBlank) then 1 else 0
  parts.length - isBorder parts.head? - isBorder parts.getLast?

/-- A line that goes on with a backslash at its end. -/
def endsInBackslash (s : Text) : Bool := runLength '\\' s.reverse % 2 = 1

/-- Whether a paragraph ends where the head of a table with so many columns might follow. Such a
    head begins with a pipe. -/
def endsAtHead (head : Text) (columns : List Alignment) : Bool :=
  head.head? = some '|' && headColumns (splitRow false false head) = columns.length

/-- Whether a line is the head of a table with so many columns. -/
def isHead (head : Text) (columns : List Alignment) : Bool :=
  let parts := splitRow true false head
  1 < parts.length && !endsInBackslash head && headColumns parts = columns.length

/-- Cells to fill a row of so many columns; those left over are dropped. -/
def fitRow (columns : Nat) (cells : List Text) : List Text :=
  (cells ++ List.replicate (columns - cells.length) []).take columns

@[simp]
theorem length_fitRow (columns : Nat) (cells : List Text) :
    (fitRow columns cells).length = columns := by
  simp only [fitRow, List.length_take, List.length_append, List.length_replicate]
  omega

end PostMarkup.Markdown
