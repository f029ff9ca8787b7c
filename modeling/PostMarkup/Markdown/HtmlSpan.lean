import PostMarkup.Markdown.Cursor

namespace PostMarkup.Markdown

/-- Blanks and line ends, which may stand between the attributes of a tag. -/
def skipTagBlanks (s : Text) : Text := s.dropWhile isGap

/-- The text after the value of an attribute. -/
def afterValue? (s : Text) : Option Text :=
  match s with
  | '"' :: s => (Text.upTo? ['"'] s).map Prod.snd
  | '\'' :: s => (Text.upTo? ['\''] s).map Prod.snd
  | _ =>
    match s.dropWhile fun c => !" \n\r\"'=<>\x60".toList.contains c with
    | rest => if rest.length < s.length then some rest else none

/-- The text after an attribute. -/
def afterAttribute? (s : Text) : Option Text :=
  match s with
  | c :: s =>
    if c.isAlpha || c = '_' || c = ':' then
      let s := s.dropWhile fun c => c.isAlphanum || c = '_' || c = '.' || c = ':' || c = '-'
      match skipTagBlanks s with
      | '=' :: value => afterValue? (skipTagBlanks value)
      | _ => some s
    else none
  | [] => none

/-- The text after so many attributes at most and the end of their tag. Blanks come before each
    attribute. -/
def afterAttributes? : Nat → Text → Option Text
  | 0, _ => none
  | room + 1, s =>
    match skipTagBlanks s with
    | '>' :: rest => some rest
    | '/' :: rest => Text.after? ['>'] rest
    | rest =>
      if rest.length < s.length then (afterAttribute? rest).bind (afterAttributes? room) else none

/-- The text after the name of a tag. -/
def afterTagName? (s : Text) : Option Text :=
  if s.head?.any Char.isAlpha then some (s.dropWhile fun c => c.isAlphanum || c = '-') else none

/-- The text after a start or end tag. An end tag has no attributes and stays on its line. -/
def afterTag? (s : Text) : Option Text :=
  match s with
  | '/' :: s => do Text.after? ['>'] ((← afterTagName? s).dropWhile isLineBlank)
  | _ => (afterTagName? s).bind (afterAttributes? s.length)

/-- The text after a comment, a CDATA section or a declaration, from after the exclamation mark. The
    hyphens that open a comment may close it too. -/
def afterDeclaration? (s : Text) : Option Text :=
  match s with
  | '-' :: '-' :: _ => (Text.upTo? "-->".toList s).map Prod.snd
  | '[' :: s => do
    let s := (← Text.after? "CDATA[".toList s).dropWhile (· ≠ ']')
    if s.isEmpty then none else Text.after? ['>'] (s.dropWhile (· = ']'))
  | c :: s => if c.isAlpha then (Text.upTo? ['>'] s).map Prod.snd else none
  | [] => none

/-- The text after any HTML that a text may hold. -/
def afterHtml? (s : Text) : Option Text :=
  match s with
  | '!' :: s => afterDeclaration? s
  | '?' :: s => (Text.upTo? "?>".toList s).map Prod.snd
  | _ => afterTag? s

end PostMarkup.Markdown
