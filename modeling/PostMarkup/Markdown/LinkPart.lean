import PostMarkup.Markdown.LineShape
import PostMarkup.Text.CaseFold

namespace PostMarkup.Markdown

/-- Escapes and references replaced by what they stand for. The number counts characters that were
    taken together with an earlier one. -/
def unescapeFrom (inTable : Bool) : Nat → Text → Text
  | _, [] => []
  | covered + 1, _ :: s => unescapeFrom inTable covered s
  | 0, '\\' :: s =>
    match s with
    | c :: rest =>
      if inTable && c = '\\' && rest.head? = some '|' then '|' :: unescapeFrom inTable 2 s
      else if isAsciiPunctuation c then c :: unescapeFrom inTable 1 s
      else '\\' :: unescapeFrom inTable 0 s
    | [] => ['\\']
  | 0, '&' :: s =>
    match entity? s with
    | some (text, count) => text ++ unescapeFrom inTable count s
    | none => '&' :: unescapeFrom inTable 0 s
  | 0, c :: s => c :: unescapeFrom inTable 0 s

/-- Escapes and references replaced by what they stand for. -/
def unescape (inTable : Bool) (s : Text) : Text := unescapeFrom inTable 0 s

/-- A character before the part that was read. -/
def consPart (c : Char) (part : Option (Text × Text)) : Option (Text × Text) :=
  part.map fun (read, rest) => (c :: read, rest)

/-- A destination between angle brackets, from after the first. -/
def bracketedDestination? : Text → Option (Text × Text)
  | [] => none
  | '>' :: s => some ([], s)
  | '\\' :: c :: s =>
    if isAsciiPunctuation c then consPart '\\' (consPart c (bracketedDestination? s))
    else consPart '\\' (bracketedDestination? (c :: s))
  | c :: s => if isLineEnd c || c = '<' then none else consPart c (bracketedDestination? s)

/-- How many parentheses may be open in a destination. -/
def maxNesting : Nat := 33

/-- A destination without angle brackets, inside so many open parentheses. It ends at a blank or at
    a parenthesis that it did not open. -/
def plainDestination? : Nat → Text → Option (Text × Text)
  | depth, [] => if depth = 0 then some ([], []) else none
  | depth, '\\' :: c :: s =>
    if isAsciiPunctuation c then consPart '\\' (consPart c (plainDestination? depth s))
    else consPart '\\' (plainDestination? depth (c :: s))
  | depth, c :: s =>
    if c ≤ ' ' then if depth = 0 then some ([], c :: s) else none
    else if c = '(' then
      if depth < maxNesting then consPart c (plainDestination? (depth + 1) s) else none
    else if c = ')' then
      match depth with
      | 0 => some ([], c :: s)
      | depth + 1 => consPart c (plainDestination? depth s)
    else consPart c (plainDestination? depth s)

/-- A destination of either kind, not yet unescaped. -/
def destination? (s : Text) : Option (Text × Text) :=
  match s with
  | '<' :: s => bracketedDestination? s
  | _ => plainDestination? 0 s

/-- How a title is quoted. In prose a carriage return before a line feed stays in it, and a line of
    it loses the backslash of an escape that it begins with. -/
structure TitleStyle where
  opening : Char
  closing : Char
  inProse : Bool

/-- A title up to its closing mark, from after the opening one, at the start of a line or not.
    Titles do not nest, and the indentation of their further lines is dropped. -/
def titleBody? (style : TitleStyle) : Bool → Text → Option (Text × Text)
  | _, [] => none
  | lineStart, '\\' :: c :: s =>
    if !isAsciiPunctuation c then consPart '\\' (titleBody? style false (c :: s))
    else if lineStart && style.inProse then titleBody? style false (c :: s)
    else consPart '\\' (consPart c (titleBody? style false s))
  | lineStart, c :: s =>
    if lineStart && (c = ' ' || c = '\t') then titleBody? style true s
    else if c = style.closing then some ([], s)
    else if c = style.opening then none
    else if c = '\r' && s.head? = some '\n' then
      if style.inProse then consPart c (titleBody? style false s) else titleBody? style false s
    else if isLineEnd c then consPart '\n' (titleBody? style true s)
    else consPart c (titleBody? style false s)

/-- A title, not yet unescaped. -/
def title? (inProse : Bool) (s : Text) : Option (Text × Text) :=
  match s with
  | '"' :: s => titleBody? ⟨'"', '"', inProse⟩ false s
  | '\'' :: s => titleBody? ⟨'\'', '\'', inProse⟩ false s
  | '(' :: s => titleBody? ⟨'(', ')', inProse⟩ false s
  | _ => none

/-- Blanks and at most one line end. -/
def skipSeparator (s : Text) : Text :=
  let s := s.dropWhile isLineBlank
  (s.drop (endOfLine s).length).dropWhile isLineBlank

/-- Where a link leads, and what it is titled. -/
structure Target where
  destination : Text
  title : Text := []

/-- The bytes that a target puts into the document wherever its label stands. -/
def Target.byteSize (target : Target) : Nat := target.destination.byteSize + target.title.byteSize

/-- A target in parentheses after the text of a link, from the opening one. -/
def inlineTarget? (inTable : Bool) (s : Text) : Option (Target × Text) := do
  let s ← Text.after? ['('] s
  let (destination, s) ← destination? (skipSeparator s)
  let s := skipSeparator s
  let (title, s) :=
    match title? true s with
    | some (title, s) => (title, skipSeparator s)
    | none => ([], s)
  let s ← Text.after? [')'] s
  return (⟨unescape inTable destination, unescape inTable title⟩, s)

/-- How much of a label may count: blanks, the bytes of characters that are not ASCII, and two for
    an escape. Other characters do not count. -/
def maxLabel : Nat := 1000

/-- What a character of a label counts. -/
def labelCost (c : Char) : Nat := if c.utf8Size = 1 then 0 else c.utf8Size

/-- A run of blanks in a label. -/
inductive BlankRun
  | none
  | inLine
  | overLines
deriving DecidableEq

/-- A label up to its closing bracket, from after the opening one, with its blanks collapsed; so
    much may still count. Brackets inside need a backslash, and no blank line is inside. -/
def labelBody? (inTable : Bool) : Nat → BlankRun → Text → Option (Text × Text)
  | 0, _, _ => none
  | _, _, [] => none
  | _, _, ']' :: s => some ([], s)
  | _, _, '[' :: _ => none
  | room + 1, _, '\\' :: c :: s =>
    if inTable && c = '\\' && s.head? = some '|' then labelBody? inTable (room - 1) .none s
    else
      consPart '\\' (consPart c (labelBody? inTable (room + 1 - (c.utf8Size + 1)) .none s))
  | room + 1, run, c :: s =>
    if isLineEnd c then
      if run = .overLines then none
      else if c = '\r' && s.head? = some '\n' then labelBody? inTable room run s
      else if run = .none then consPart ' ' (labelBody? inTable room .overLines s)
      else labelBody? inTable room .overLines s
    else if isLineBlank c then
      if run = .none then consPart ' ' (labelBody? inTable room .inLine s)
      else labelBody? inTable room run s
    else consPart c (labelBody? inTable (room + 1 - labelCost c) .none s)

/-- The form in which labels agree: case does not matter, nor do blanks around them. -/
def normaliseLabel (s : Text) : Text := s.trim.fold

/-- A label and the text after it, from after the opening bracket. A blank label is none. -/
def label? (inTable : Bool) (s : Text) : Option (Text × Text) :=
  match labelBody? inTable maxLabel .none s with
  | some (label, rest) => if label.all (· = ' ') then none else some (normaliseLabel label, rest)
  | none => none

/-- The label of a link reference definition, up to the colon after it. -/
def definitionLabel? (s : Text) : Option (Text × Text) := do
  let (label, s) ← label? false (← Text.after? ['['] s)
  return (label, ← Text.after? [':'] s)

/-- The target of a link reference definition. Nothing else stands on the line that it ends on: a
    title that spoils its line is dropped if it began on a line of its own. -/
def definitionTarget? (s : Text) : Option (Target × Text) := do
  let start := skipSeparator s
  let (destination, s) ← destination? start
  if destination.isEmpty && start.head? ≠ some '<' then none
  let untitled : Option (Target × Text) :=
    if isBlankLine s then some (⟨unescape false destination, []⟩, s) else none
  let titled : Option (Target × Text) := do
    let (title, rest) ← title? false (skipSeparator s)
    if isBlankLine rest then
      some (⟨unescape false destination, unescape false title⟩, rest)
    else none
  if s.head?.all isGap then titled <|> untitled else none

/-- A link reference definition. -/
structure Definition where
  label : Text
  target : Target

end PostMarkup.Markdown
