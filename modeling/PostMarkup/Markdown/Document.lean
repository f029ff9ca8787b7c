import PostMarkup.Markdown.Outline

namespace PostMarkup.Markdown

/-- What ends a paragraph, or the rows of a table, from after the indentation of a line. -/
def interrupts (anyItem : Bool) (s : Text) : Bool :=
  s.head?.all isLineEnd || isRule s || (headingLevel? s).isSome || (openingFence? s).isSome ||
    s.head? = some '>' ||
    (if anyItem then (listMarker? 0 { rest := s }).isSome else interruptsAsItem s) ||
    (s.head? = some '<' && (strongHtmlEnd? s.tail).isSome)

/-- The columns of the delimiter row on the next line, and how many characters that line has. It
    must be in the same containers. -/
def delimitersBelow? (containers : List Container) (s : Text) : Option (List Alignment × Nat) :=
  let (entered, cursor) := Container.enterAll containers { rest := s.drop (lineLength s) }
  let (indent, inner) := cursor.takeSpaces 4
  if entered = containers.length && indent < 4 then
    (delimiterRow? inner.rest).map fun columns => (columns, inner.lineLength)
  else none

/-- What ends a paragraph, on a line that is in all of the containers or not. -/
def interruptsParagraph (containers : List Container) (entered : Bool) (s : Text) : Bool :=
  interrupts (!entered) s ||
    (delimitersBelow? containers s).any fun (columns, _) => endsAtHead (restOfLine s) columns

/-- A line of a paragraph, of which so many containers were entered before the place. -/
def PassageLine.ofLine (containers : List Container) (entered : Nat) (line : Text)
    (cursor : Cursor) : PassageLine :=
  let short :=
    match containers[entered]? with
    | some (.item _) => true
    | _ => false
  let text := restOfLine cursor.rest
  { marks := line.take cursor.passed, short, text
    ending := endOfLine (cursor.rest.drop text.length) }

/-- A character that a link definition may have further on in its paragraph. -/
structure Ahead where
  char : Char
  /-- How many characters of container marks come after it. -/
  marks : Nat := 0
  /-- A label does not go on after it. -/
  endsLabel : Bool := false
  /-- A destination or a title does not go on after it. -/
  endsTarget : Bool := false

/-- What is ahead up to the next blank line, of which the first characters are marks. A definition
    stays in its paragraph: it does not go on over a line that would end the paragraph, and a label
    may only be underlined where the line is in all containers. -/
def ahead (containers : List Container) : Nat → Text → List Ahead
  | _, [] => []
  | covered + 1, _ :: s => ahead containers covered s
  | 0, c :: s =>
    if c = '\n' || c = '\r' && s.head? ≠ some '\n' then
      let (count, cursor) := Container.enterAll containers { rest := s }
      let entered : Bool := count = containers.length
      let ends (place : Cursor) : Bool := interruptsParagraph containers entered place.rest
      let underlined (place : Cursor) : Bool := (underlineLevel? place.rest).isSome
      let (indent, inner) := cursor.takeSpaces 4
      if isBlankLine cursor.rest then []
      else
        { char := c, marks := cursor.passed,
          endsLabel := ends cursor || entered && underlined cursor,
          endsTarget := indent < 4 && (ends inner || underlined inner) } ::
          ahead containers cursor.passed s
    else { char := c } :: ahead containers 0 s

/-- What a label may reach, given whether the first character is escaped. A backslash hides even a
    line end from it. -/
def labelReach : Bool → List Ahead → List Ahead
  | _, [] => []
  | escaped, next :: rest =>
    if next.endsLabel && !escaped then []
    else next :: labelReach (next.char = '\\' && !escaped) rest

/-- A link definition at a place, and how many characters it has. -/
def definitionAt? (containers : List Container) (s : Text) : Option (Definition × Nat) := do
  if s.head? ≠ some '[' then none
  let here := ahead containers 0 s
  let text := (labelReach false here).map Ahead.char
  let (label, rest) ← definitionLabel? text
  let labelLength := text.length - rest.length
  let text := ((here.drop labelLength).takeWhile fun next => !next.endsTarget).map Ahead.char
  let (target, rest) ← definitionTarget? text
  let read := here.take (labelLength + (text.length - rest.length))
  return (⟨label, target⟩, read.foldr (fun next count => next.marks + 1 + count) 0)

/-- Link definitions from a place on, so many at most, and how many characters were read before the
    line of the place where a paragraph begins, or in all. The line after a definition begins a
    paragraph unless it would end one. -/
def readDefinitions (containers : List Container) :
    Nat → Nat → Cursor → List Definition × Nat × Option Cursor
  | 0, read, cursor => ([], read, some cursor)
  | room + 1, read, cursor =>
    match definitionAt? containers cursor.rest with
    | none => ([], read, some cursor)
    | some (found, count) =>
      let last := cursor.skip count
      let read := read + last.lineLength
      let (entered, next) :=
        Container.enterAll containers { rest := last.rest.drop (lineLength last.rest) }
      let (indent, inner) := next.takeSpaces 4
      let ends : Bool :=
        indent < 4 && interruptsParagraph containers (entered = containers.length) inner.rest
      if ends || next.skipSpaces.atEnd then ([found], read, none)
      else
        let (more, rest) := readDefinitions containers room read next.skipSpaces
        (found :: more, rest)

/-- The box of a task at the head of an item: whether it is ticked, and the place after it. A blank
    or a line end comes next. -/
def taskMarker? (cursor : Cursor) : Option (Bool × Cursor) :=
  let (_, inner) := cursor.takeSpaces 3
  match inner.rest with
  | '[' :: c :: ']' :: rest =>
    if (isLineBlank c || c = 'x' || c = 'X') && rest.head?.any isGap then
      some (!isLineBlank c, inner.skip 3)
    else none
  | _ => none

/-- What is left of a line once its containers are open. -/
inductive Opened
  /-- Nothing: the line ended with the marker of an item. -/
  | blankItem (cursor : Cursor)
  | text (cursor : Cursor)
  /-- The text of a task, after its box. -/
  | task (done : Bool) (cursor : Cursor)

namespace Outline

/-- A line that goes on with a paragraph. A lazy line need not be in all of its containers, but then
    it cannot underline it. -/
def absorbIntoParagraph? (outline : Outline) (task : Option Bool) (lines : List PassageLine)
    (line : Text) : Option (Nat × Outline) :=
  let containers := outline.containers
  let (count, cursor) := Container.enterAll containers { rest := line }
  let entered : Bool := count = containers.length
  let (indent, inner) := cursor.takeSpaces 4
  let longer : Option (Nat × Outline) :=
    if cursor.skipSpaces.atEnd then none
    else
      let lines := PassageLine.ofLine containers count line cursor :: lines
      some (cursor.lineLength, { outline with leaf := some (.paragraph task lines) })
  if indent = 4 then longer
  else
    match if entered then underlineLevel? inner.rest else none with
    | some level =>
      let underline := PassageLine.ofLine containers count line inner
      let heading := underlinedHeading level task lines.reverse underline
      some (inner.lineLength, { outline with leaf := none }.append heading)
    | none => if interruptsParagraph containers entered inner.rest then none else longer

/-- The outline after a line that goes on with the open leaf, if it does. -/
def absorb? (outline : Outline) (leaf : Leaf) (line : Text) : Option (Nat × Outline) :=
  let containers := outline.containers
  let (count, cursor) := Container.enterAll containers { rest := line }
  let entered : Bool := count = containers.length
  match leaf with
  | .paragraph task lines => outline.absorbIntoParagraph? task lines line
  | .fenced mark count indent info lines =>
    let (_, inner) := cursor.takeSpaces indent
    let (more, last) := inner.takeSpaces (4 - indent)
    if !entered then none
    else if more < 4 - indent && (closesFence mark count last.rest || last.rest.isEmpty) then
      some (last.lineLength, outline.closeLeaf)
    else
      let leaf := .fenced mark count indent info (inner.copied :: lines)
      some (inner.feedLength, { outline with leaf := some leaf })
  | .indented lines blank =>
    let (taken, inner) := cursor.takeSpaces 4
    if !entered || !(taken = 4 || inner.atEnd) || inner.rest.isEmpty then none
    else if isBlankLine inner.rest then
      let leaf := .indented lines (inner.copied :: blank)
      some (inner.feedLength, { outline with leaf := some leaf, afterBlank := true })
    else
      let leaf := .indented (inner.copied :: (blank ++ lines)) []
      some (inner.feedLength, { outline with leaf := some leaf, afterBlank := false })
  | .html last lines =>
    let longer : Outline := { outline with leaf := some (.html last (cursor.copied :: lines)) }
    if !entered || cursor.rest.isEmpty then none
    else
      match last with
      | .blankLine => if isBlankLine cursor.rest then none else some (cursor.feedLength, longer)
      | .mark text =>
        let isLast := (Text.upTo? text (restToFeed cursor.rest)).isSome
        some (cursor.feedLength, if isLast then longer.closeLeaf else longer)
  | .table columns head rows =>
    let row := cursor.skipSpaces.rest
    let cells := rowCells (restOfLine row)
    if !entered || interrupts true row || cells.isEmpty then none
    else
      let leaf := .table columns head (fitRow columns.length cells :: rows)
      some (cursor.lineLength, { outline with leaf := some leaf })

/-- Opens the containers that a line has markers for, so many at most. The text of a task opens no
    more of them. -/
def openContainers : Nat → Outline → Cursor → Outline × Opened
  | 0, outline, cursor => (outline, .text cursor)
  | room + 1, outline, cursor =>
    let (indent, place) := cursor.takeSpaces 4
    if indent = 4 then (outline, .text cursor)
    else
      match listMarker? indent place with
      | some (marker, inner) =>
        let outline := (outline.continueList marker).enter (.item marker.indent)
        if isBlankLine inner.rest then ({ outline with emptyItem := true }, .blankItem inner)
        else
          match taskMarker? inner with
          | some (done, inner) =>
            if isBlankLine inner.rest then
              ({ outline.append (.task done) with emptyItem := true }, .blankItem inner)
            else (outline, .task done inner.skipSpaces)
          | none => openContainers room outline inner
      | none =>
        if place.rest.head? = some '>' then
          openContainers room (outline.finishList.enter .quote) (place.step.takeSpaces 1).2
        else (outline, .text cursor)

/-- A paragraph, or the table that its first line is the head of. -/
def beginParagraph (outline : Outline) (task : Option Bool) (cursor : Cursor) : Nat × Outline :=
  let outline := outline.finishList
  let line := restOfLine cursor.rest
  match (delimitersBelow? outline.containers cursor.rest).filter fun row => isHead line row.1 with
  | some (columns, count) =>
    let head := fitRow columns.length (rowCells line)
    (cursor.lineLength + count, { outline with leaf := some (.table columns head []) })
  | none =>
    let first : PassageLine := { text := line, ending := endOfLine (cursor.rest.drop line.length) }
    (cursor.lineLength, { outline with leaf := some (.paragraph task [first]) })

/-- Link definitions or a paragraph. -/
def beginProse (outline : Outline) (cursor : Cursor) : Nat × Outline :=
  let (found, read, rest) :=
    readDefinitions outline.containers
      (if cursor.rest.head? = some '[' then cursor.rest.length else 0) 0 cursor
  let outline :=
    { outline.finishList with definitions := outline.definitions ++ found }
  match rest with
  | some cursor =>
    let (count, outline) := outline.beginParagraph none cursor
    (read + count, outline)
  | none => (read, outline)

/-- A leaf begins at a place. -/
def beginLeaf (outline : Outline) (cursor : Cursor) : Nat × Outline :=
  let (indent, inner) := cursor.takeSpaces 4
  let s := inner.rest
  if indent = 4 then (inner.feedLength, outline.openLeaf (.indented [inner.copied] []))
  else
    match if s.head? = some '<' then htmlEnd? s.tail else none with
    | some last =>
      let opened :=
        outline.openLeaf (.html last [List.replicate indent ' ' ++ copyLine (restToFeed s)])
      match last with
      | .mark text =>
        let isLast := (Text.upTo? text (restToFeed s)).isSome
        (inner.feedLength, if isLast then opened.closeLeaf else opened)
      | .blankLine => (inner.feedLength, opened)
    | none =>
      if isRule s then (inner.lineLength, outline.addBlock .rule)
      else
        match headingLevel? s, openingFence? s with
        | some level, _ =>
          let content := s.drop level
          if content.head?.all isLineEnd then
            (inner.lineLength, outline.addBlock (openedHeading level []))
          else (inner.feedLength, outline.addBlock (openedHeading level (restToFeed content)))
        | none, some (mark, count) =>
          let info := ((restToFeed (s.drop count)).reverse.dropWhile isGap).reverse
          let parts := (info.dropWhile isLineBlank).splitOnP (· = '\r')
          let info := parts.flatMap (unescape false)
          (inner.feedLength, outline.openLeaf (.fenced mark count indent info []))
        | none, none => outline.beginProse inner

/-- A line that does not go on with a leaf. -/
def beginLine (outline : Outline) (line : Text) : Nat × Outline :=
  let (entered, cursor) := Container.enterAll outline.containers { rest := line }
  let outline := leaveMany (outline.frames.length - entered) outline
  match openContainers (restOfLine line).length outline cursor with
  | (outline, .blankItem cursor) => (cursor.lineLength, outline)
  | (outline, .task done cursor) => outline.beginParagraph (some done) cursor
  | (outline, .text cursor) =>
    if isBlankLine cursor.rest then (cursor.lineLength, outline.noteBlankLine)
    else outline.beginLeaf cursor

/-- The outline after one more line, from what is left of the document. -/
def readLine (outline : Outline) (line : Text) : Nat × Outline :=
  match outline.leaf with
  | none => outline.beginLine line
  | some leaf => (outline.absorb? leaf line).getD (outline.closeLeaf.beginLine line)

/-- The outline after all that is left of the document, of which the first characters have been read
    already. -/
def readLines : Nat → Outline → Text → Outline
  | _, outline, [] => outline
  | covered + 1, outline, _ :: rest => readLines covered outline rest
  | 0, outline, c :: rest =>
    let (read, outline) := outline.readLine (c :: rest)
    readLines (read - 1) outline rest

end Outline

/-- How many bytes the targets of labels may put into any document. -/
def minAllowance : Nat := 100000

/-- A document: its blocks, the link definitions found anywhere in it, and how many bytes their
    targets may put into it. -/
structure Document where
  blocks : List (Block Prose)
  definitions : List Definition
  allowance : Nat

/-- Every text is a document. -/
def Document.ofText (s : Text) : Document :=
  let outline := Outline.readLines 0 {} s
  ⟨outline.close, outline.definitions, max s.byteSize minAllowance⟩

end PostMarkup.Markdown
