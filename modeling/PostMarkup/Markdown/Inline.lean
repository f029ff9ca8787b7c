import PostMarkup.Markdown.Autolink
import PostMarkup.Markdown.LinkPart
import PostMarkup.Text.Punctuation

namespace PostMarkup.Markdown

inductive Styling
  | emphasis
  | strong
  | deleted
deriving DecidableEq

inductive Inline
  | text (s : Text)
  | code (s : Text)
  | html (s : Text)
  | softBreak
  /-- A break of the line, asked for by a backslash or by blanks. -/
  | hardBreak (backslash : Bool)
  | styled (styling : Styling) (content : List Inline)
  | link (target : Target) (content : List Inline)
  | image (target : Target) (content : List Inline)
  | autolink (address : Address)

/-- A run of one mark that may style text. -/
structure Run where
  mark : Char
  count : Nat
  canOpen : Bool
  canClose : Bool
  /-- What is shown after the run, if its last mark is text. -/
  trailing : Text := []
deriving DecidableEq

namespace Run

/-- A run opens styled text if no blank follows it. Inside a word only asterisks and two tildes do.
    The neighbours are those on its line. -/
def opens (mark : Char) (count : Nat) (before after : Option Char) : Bool :=
  match after with
  | none => false
  | some c =>
    !isBlank c && (before.all (fun d => isBlank d || isPunctuation d) || mark = '~' && 1 < count ||
      mark = '*' && !isPunctuation c)

/-- A run closes styled text if no blank precedes it. Inside a word only asterisks and two tildes
    do, and tildes after an escaped one. -/
def closes (mark : Char) (count : Nat) (before after : Option Char) : Bool :=
  match before with
  | none => false
  | some c =>
    !isBlank c && (after.all (fun d => isBlank d || isPunctuation d) || mark = '~' && c = '~' ||
      (mark = '*' || mark = '~' && 1 < count) && !isPunctuation c)

/-- The run of a mark between its neighbours, unless it can do nothing. -/
def ofNeighbours? (mark : Char) (count : Nat) (before after : Option Char) : Option Run :=
  let canOpen := opens mark count before after
  let canClose := closes mark count before after
  if (canOpen || canClose) && (mark ≠ '~' || count ≤ 2) then
    some { mark, count, canOpen, canClose }
  else none

/-- Opening and closing runs that can be either of it do not match if their lengths add up to a
    multiple of three, unless both are one. Tildes match only runs of the same length. -/
def closesRun (opening closing : Run) : Bool :=
  let both (run : Run) : Bool := run.canOpen && run.canClose
  opening.mark = closing.mark && (closing.mark ≠ '~' || opening.count = closing.count) &&
    (!both opening && !both closing || (opening.count + closing.count) % 3 ≠ 0 ||
      closing.count % 3 = 0)

end Run

/-- A part of inline content before runs are matched. -/
inductive Piece
  | inline (content : Inline)
  | run (run : Run)

end PostMarkup.Markdown
