import PostMarkup.Markdown.Block
import PostMarkup.Markdown.Emphasis
import PostMarkup.Markdown.HtmlSpan

namespace PostMarkup.Markdown

/-- The content of code up to a run of exactly so many backticks, and the text after the run, given
    whether a backtick comes right before. -/
def codeBody? (count : Nat) : Bool → Text → Option (Text × Text)
  | _, [] => none
  | inRun, c :: s =>
    if c = '\x60' && !inRun && runLength '\x60' (c :: s) = count then
      some ([], (c :: s).drop count)
    else consPart c (codeBody? count (c = '\x60') s)

/-- Code without the indentation of its last line, if that is all there is on the line and the line
    is indented less than its item. -/
def dropShortLine (content : Passage) : Passage :=
  let blanks := content.reverse.takeWhile fun glyph => glyph.char = ' ' || glyph.char = '\t'
  let before := content.take (content.length - blanks.length)
  if before.getLast?.any Glyph.short then before else content

/-- A text with its pipes freed of the backslashes right before them. -/
def freePipes : Text → Text
  | [] => []
  | [c] => [c]
  | c :: d :: s => if c = '\\' && d = '|' then freePipes (d :: s) else c :: freePipes (d :: s)

/-- Code as it is shown: line ends are spaces, and one space on either side is only a border. -/
def codeText (inTable : Bool) (content : Passage) : Text :=
  let s := (dropShortLine content).text.map fun c => if isLineEnd c then ' ' else c
  let s := if inTable then freePipes s else s
  if s.head? = some ' ' && s.getLast? = some ' ' && s.any (· ≠ ' ') then s.tail.dropLast else s

/-- A bracket that may begin the text of a link or an image. -/
structure Bracket where
  isImage : Bool
  /-- A link does not hold another one, so a bracket around a link begins none. -/
  disabled : Bool := false
  /-- The pieces before the bracket, the last one first. -/
  before : List Piece
  /-- The passage after the bracket. -/
  after : Passage

/-- The bracket as text. -/
def Bracket.piece (bracket : Bracket) : Piece :=
  .inline (.text (if bracket.isImage then ['!', '['] else ['[']))

/-- What prose is read with. -/
structure Setting where
  definitions : List Definition
  prose : Prose

/-- Inline content that has been read up to some place. -/
structure Reading where
  /-- How many bytes the targets of labels may still put into the document. -/
  allowance : Nat
  /-- The open brackets, innermost first. -/
  brackets : List Bracket := []
  /-- The pieces since the innermost bracket, the last one first. -/
  pieces : List Piece := []
  /-- Closing brackets of labels that name no definition, by the length of the text after them. Such
      a label is not tried again on its own. -/
  undefined : List Nat := []
  /-- What was read last does not end in text. -/
  complete : Bool := false
  /-- A mark has been read that might have begun or ended something. -/
  marked : Bool := false
  /-- How much was read of what comes after the passage. -/
  beyond : Nat := 0

namespace Reading

def add (reading : Reading) (content : Inline) : Reading :=
  { reading with pieces := .inline content :: reading.pieces }

/-- Content that text cannot go on with. -/
def addComplete (reading : Reading) (content : Inline) : Reading :=
  { reading.add content with complete := true }

/-- The innermost bracket begins nothing and is text. -/
def dropBracket (reading : Reading) : Reading :=
  match reading.brackets with
  | bracket :: outer =>
    { reading with
      brackets := outer, pieces := reading.pieces ++ bracket.piece :: bracket.before }
  | [] => reading

/-- A closing bracket is text, and so is the one that it would close. -/
def addClosing (reading : Reading) : Reading :=
  let closed : Reading := { reading with pieces := .inline (.text [']']) :: reading.pieces }
  closed.dropBracket

/-- All pieces up to the end of a link or of the prose, given with the last one first. A backslash
    that would break the last line of them is text if there are marks among them. -/
def endPieces (marked : Bool) (pieces : List Piece) : List Piece :=
  match pieces with
  | .inline (.hardBreak true) :: before =>
    if marked then .inline (.text ['\\']) :: before else pieces
  | _ => pieces

/-- Whether there are runs among some pieces. -/
def anyRun (pieces : List Piece) : Bool :=
  pieces.any fun
    | .run _ => true
    | .inline _ => false

/-- The pieces since the innermost bracket become a link or an image. -/
def link (reading : Reading) (target : Target) : Reading :=
  match reading.brackets with
  | bracket :: outer =>
    let content := matchRuns (endPieces (anyRun reading.pieces) reading.pieces).reverse
    let piece : Piece :=
      .inline (if bracket.isImage then .image target content else .link target content)
    let outer :=
      if bracket.isImage then outer
      else outer.map fun around => { around with disabled := around.disabled || !around.isImage }
    { reading with brackets := outer, pieces := piece :: bracket.before }
  | [] => reading

/-- The end of the prose, with what is shown after the passage. -/
def trail (prose : Prose) (reading : Reading) : Reading :=
  let shown := prose.shown.drop reading.beyond
  if shown.isEmpty then reading
  else if prose.separate || 0 < reading.beyond then reading.add (.text shown)
  else
    match reading.pieces, reading.brackets with
    | .run run :: before, _ =>
      { reading with pieces := .run { run with trailing := shown } :: before }
    | [], [] => reading
    | _, _ => if reading.complete then reading else reading.add (.text shown)

/-- The pieces, once no bracket can be closed any more. Brackets that are left are text. -/
def close (reading : Reading) : List Piece :=
  (endPieces reading.marked (reading.brackets.foldl
    (fun later bracket => later ++ bracket.piece :: bracket.before) reading.pieces)).reverse

/-- How a link goes on after its text. -/
inductive Reference
  /-- With a target in parentheses, after which this text follows. -/
  | inline (target : Target) (rest : Text)
  /-- With a label of its own. -/
  | full (label rest : Text)
  /-- With empty brackets or nothing: the text of the link is the label. -/
  | own (rest : Text)

/-- What comes after the text of a link. A backslash before the bracket of a label is ignored. -/
def reference (inTable : Bool) (s : Text) : Reference :=
  match inlineTarget? inTable s with
  | some (target, rest) => .inline target rest
  | none =>
    match if (Text.after? ['\\', '['] s).isSome then s.tail else s with
    | '[' :: ']' :: rest => .own rest
    | '[' :: inner =>
      match label? inTable inner with
      | some (label, rest) => .full label rest
      | none => .own s
    | _ => .own s

/-- The link to the target that a label is defined to have, unless there are too many such links.
    The first definition counts. -/
def linkTo? (definitions : List Definition) (label : Text) (reading : Reading) : Option Reading :=
  if reading.allowance = 0 then none
  else
    (definitions.find? fun entry => entry.label = label).map fun entry =>
      { reading.link entry.target with
        allowance := reading.allowance - entry.target.byteSize, complete := true }

/-- A closing bracket, given the text after it. The number counts characters after it that were read
    as well. The bracket ends no link if more text belongs to it. A label ends in the passage. -/
def closeBracket (setting : Setting) (s : Text) (reading : Reading) : Nat × Reading :=
  let prose := setting.prose
  let failed := reading.addClosing
  match reading.brackets with
  | [] => (0, failed)
  | bracket :: _ =>
    if bracket.disabled || s.isEmpty && !prose.shown.isEmpty && !prose.separate then (0, failed)
    else
      let ahead := s ++ prose.after.text
      match reference prose.inTable ahead with
      | .inline target rest => (ahead.length - rest.length, reading.link target)
      | .full label rest =>
        let count := ahead.length - rest.length
        if s.length < count then (0, failed)
        else
          match reading.linkTo? setting.definitions label with
          | some linked => (count, linked)
          | none => (0, { failed with undefined := (s.length - count) :: failed.undefined })
      | .own rest =>
        match label? prose.inTable bracket.after.text with
        | some (label, after) =>
          if after.length = s.length && !reading.undefined.contains s.length then
            match reading.linkTo? setting.definitions label with
            | some linked => (ahead.length - rest.length, linked)
            | none => (0, failed)
          else (0, failed)
        | none => (0, failed)

/-- A line break, given the passage after the line end. The indentation of the next line is
    dropped. -/
def breakLine (kind : Inline) (skipped : Nat) (s : Passage) (reading : Reading) : Nat × Reading :=
  (skipped + s.indentation, reading.addComplete kind)

/-- A line end, after so many blanks. Two of them break the line. -/
def readLineEnd (c : Char) (blanks : Nat) (s : Passage) (reading : Reading) : Nat × Reading :=
  let more := if c = '\r' && s.head?.any (fun glyph => glyph.char = '\n') then 1 else 0
  breakLine (if 2 ≤ blanks then .hardBreak false else .softBreak) more (s.drop more) reading

/-- Blanks. At the end of a line they are dropped. -/
def readBlanks (c : Char) (s : Passage) (reading : Reading) : Nat × Reading :=
  let more : Passage := s.takeWhile fun glyph => isLineBlank glyph.char
  if (s.drop more.length).head?.all (fun glyph => isLineEnd glyph.char) then (more.length, reading)
  else (more.length, reading.add (.text (c :: more.text)))

/-- A backslash. -/
def readBackslash (inTable : Bool) (s : Passage) (reading : Reading) : Nat × Reading :=
  match s with
  | [] => (0, reading.add (.text ['\\']))
  | { char := c, .. } :: rest =>
    let next := rest.head?.map Glyph.char
    if c = '\r' && next = some '\n' then breakLine (.hardBreak true) 2 rest.tail reading
    else if isLineEnd c then breakLine (.hardBreak true) 1 rest reading
    else if inTable && c = '\\' && next = some '|' then (2, reading.add (.text ['|']))
    else if isAsciiPunctuation c then (1, reading.add (.text [c]))
    else (0, reading.add (.text ['\\']))

/-- A run of backticks, from after the first. -/
def readBackticks (inTable : Bool) (s : Passage) (reading : Reading) : Nat × Reading :=
  let more := (s.takeWhile fun glyph => glyph.char = '\x60').length
  let rest : Passage := s.drop more
  match codeBody? (more + 1) false rest.text with
  | some (content, after) =>
    let code := codeText inTable (rest.take content.length)
    (s.length - after.length, reading.addComplete (.code code))
  | none => (more, reading.add (markText '\x60' (more + 1)))

/-- An ampersand. -/
def readAmpersand (s : Text) (reading : Reading) : Nat × Reading :=
  match entity? s with
  | some (text, count) => (count, reading.addComplete (.text text))
  | none => (0, reading.add (.text ['&']))

/-- An opening angle bracket. Comments and the like are copied as they stand in the document, and
    may even end in the marks of a container; tags are copied without marks. -/
def readAngle (prose : Prose) (s : Passage) (reading : Reading) : Nat × Reading :=
  match Address.read? s.text with
  | some (address, rest) => (s.length - rest.length, reading.add (.autolink address))
  | none =>
    let isTag := s.head?.all fun glyph => glyph.char ≠ '!' && glyph.char ≠ '?'
    let source := if isTag then s.text else s.source
    let ahead := source ++ (if isTag then prose.after.text else prose.after.source)
    match afterHtml? ahead with
    | some rest =>
      let html := ahead.take (ahead.length - rest.length)
      let inside := min html.length source.length
      let touched := if isTag then inside else s.touchedBy inside
      let inMarks := ((s.take touched).getLast?.any fun glyph => isLineEnd glyph.char)
      let skipped := if inMarks then Passage.indentation (s.drop touched) else 0
      (touched + skipped + (html.length - inside), reading.add (.html ('<' :: html)))
    | none => (0, reading.add (.text ['<']))

/-- A mark that may style text, and its run. -/
def readRun (prose : Prose) (before : Option Char) (mark : Char) (s : Passage) (reading : Reading) :
    Nat × Reading :=
  let more := (s.takeWhile fun glyph => glyph.char = mark).length
  let next := (s.drop more ++ prose.after).head?.map Glyph.char
  match Run.ofNeighbours? mark (more + 1) before next with
  | some run => (more, { reading with pieces := .run run :: reading.pieces, marked := true })
  | none => (more, reading.add (markText mark (more + 1)))

/-- An opening bracket. -/
def openBracket (isImage : Bool) (s : Passage) (reading : Reading) : Reading :=
  { reading with
    brackets := { isImage, before := reading.pieces, after := s } :: reading.brackets
    pieces := [] }

/-- A character that might begin or end something, given the passage after it. Runs are not among
    them, since whether they can depends on their neighbours. -/
def isMark (c : Char) (s : Passage) : Bool :=
  let next := s.head?.map Glyph.char
  match c with
  | '\x60' | '[' | ']' => true
  | '\\' => next = some '\x60'
  | '!' => next = some '['
  | '<' => next ≠ some '\\'
  | _ => false

/-- One character, given the one before it on its line, the blanks before it and the passage after
    it. The number counts characters after it that were read as well. -/
def readCharacter (setting : Setting) (before : Option Char) (blanks : Nat) (c : Char) (s : Passage)
    (reading : Reading) : Nat × Reading :=
  let prose := setting.prose
  let reading := { reading with complete := false, marked := reading.marked || isMark c s }
  match c with
  | '\n' | '\r' => readLineEnd c blanks s reading
  | '\\' => readBackslash prose.inTable s reading
  | '\x60' => readBackticks prose.inTable s reading
  | '&' => readAmpersand s.text reading
  | '<' => readAngle prose s reading
  | '[' => (0, openBracket false s reading)
  | ']' => closeBracket setting s.text reading
  | '!' =>
    if s.head?.any (fun glyph => glyph.char = '[') then (1, openBracket true s.tail reading)
    else (0, reading.add (.text ['!']))
  | '*' | '_' | '~' => readRun prose before c s reading
  | _ => if isLineBlank c then readBlanks c s reading else (0, reading.add (.text [c]))

/-- The blanks before the place after a character, given those before it. The marks of containers
    count too. -/
def blanksAfter (blanks : Nat) (glyph : Glyph) : Nat :=
  if isLineEnd glyph.char then (glyph.marks.reverse.takeWhile isLineBlank).length
  else if isLineBlank glyph.char then blanks + 1
  else 0

/-- All that is left to read, of which the first characters have been read already. -/
def readPassage (setting : Setting) : Nat → Option Char → Nat → Passage → Reading → Reading
  | covered, _, _, [], reading => { reading with beyond := covered }
  | covered, before, blanks, glyph :: s, reading =>
    let neighbour := if isLineEnd glyph.char then none else some glyph.char
    let blanksNext := blanksAfter blanks glyph
    match covered with
    | covered + 1 => readPassage setting covered neighbour blanksNext s reading
    | 0 =>
      let (covered, reading) := reading.readCharacter setting before blanks glyph.char s
      readPassage setting covered neighbour blanksNext s reading

end Reading

/-- The inline content of prose. The state is how many bytes the targets of labels may put into the
    document from here on. -/
def Prose.inlines (definitions : List Definition) (prose : Prose) : StateM Nat (List Inline) :=
  fun allowance =>
    let reading := Reading.readPassage ⟨definitions, prose⟩ 0 none 0 prose.passage { allowance }
    (matchRuns (reading.trail prose).close, reading.allowance)

end PostMarkup.Markdown
