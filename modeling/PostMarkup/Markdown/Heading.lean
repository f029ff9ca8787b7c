import PostMarkup.Markdown.Block
import PostMarkup.Markdown.TableRow

namespace PostMarkup.Markdown

/-- A text without the spaces at its end. -/
def trimSpaces (s : Text) : Text := (s.reverse.dropWhile (· = ' ')).reverse

/-- The text before the closing number signs. They close a heading only after a space, or alone. -/
def withoutClosing (s : Text) : Text :=
  let content := (s.reverse.dropWhile fun c => c = ' ' || isLineEnd c).reverse
  let before := (content.reverse.dropWhile (· = '#')).reverse
  if before.isEmpty then []
  else if before.getLast? = some ' ' then trimSpaces before
  else content

namespace HeadingAttributes

/-- The attributes with one more word of the block. A word of one byte says nothing, and the last id
    wins. -/
def addWord (attributes : HeadingAttributes) (word : Text) : HeadingAttributes :=
  match word with
  | [] => attributes
  | c :: name =>
    if word.byteSize ≤ 1 then attributes
    else if c = '#' then { attributes with id := some name }
    else if c = '.' then { attributes with classes := attributes.classes ++ [name] }
    else
      let key := word.takeWhile (· ≠ '=')
      let value := (word.drop key.length).drop 1
      { attributes with others := attributes.others ++ [⟨key, value⟩] }

/-- The attributes that the inside of a block gives, word by word. -/
def ofBlock (s : Text) : HeadingAttributes :=
  (s.splitOnP fun c => isLineBlank c && c ≠ '\x0b').foldl addWord {}

end HeadingAttributes

/-- A character that an attribute block cannot hold. -/
def breaksAttributeBlock (c : Char) : Bool :=
  c = '\x7b' || c = '\x7d' || c = '<' || c = '>' || c = '\\' || isLineEnd c

/-- The text of a heading and the attributes at its end. -/
def splitAttributes (s : Text) : Text × HeadingAttributes :=
  match s.reverse.dropWhile (fun c => c = ' ' || c = '\t' || isLineEnd c) with
  | '\x7d' :: rest =>
    let inside := rest.takeWhile fun c => !breaksAttributeBlock c
    match rest.drop inside.length with
    | '\x7b' :: content => (content.reverse, .ofBlock inside.reverse)
    | _ => (s, {})
  | _ => (s, {})

/-- A heading opened by number signs, from the text after them up to the line feed. Only what comes
    before the end of the line is read, and without a backslash that would break the line; the rest
    is shown at most. -/
def openedHeading (level : Nat) (s : Text) : Block Prose :=
  let s := s.dropWhile isLineBlank
  let (content, attributes) := splitAttributes s
  let kept := withoutClosing content
  let line := restOfLine content
  let rest := content.drop line.length
  let breaks : Bool := endsInBackslash line && (endOfLine rest).length < rest.length
  let read := if breaks then line.dropLast else trimLineEnd line
  let passage := trimLineEnd (kept.take read.length)
  .heading level attributes none
    { passage := .ofText passage, after := .ofText (s.drop passage.length)
      shown := kept.drop passage.length, separate := passage.length < read.length }

/-- A heading made of the paragraph above its underline. A backslash at its end comes after the
    attribute block, and one that escapes the block is shown only after text. -/
def underlinedHeading (level : Nat) (task : Option Bool) (lines : List PassageLine)
    (underline : PassageLine) : Block Prose :=
  let whole := Passage.ofLines (lines ++ [underline])
  let s := (Passage.ofLines lines).text
  let breaks := endsInBackslash s
  let s := if breaks then s.dropLast else trimLineEnd s
  let (content, attributes) := splitAttributes s
  let escapes : Bool := content.length < s.length && endsInBackslash content
  if breaks then
    let goesOn : Bool := content.dropLast.getLast?.any fun c => !isLineEnd c
    let kept := if escapes && !goesOn then content.dropLast else content
    let last := if escapes && goesOn then ['\\', '\\'] else ['\\']
    .heading level attributes task { passage := whole.take kept.length ++ Passage.ofText last }
  else
    let kept := trimLineEnd content
    let read := if escapes then content.dropLast else kept
    let text := trimLineEnd read
    .heading level attributes task
      { passage := whole.take text.length, after := whole.drop text.length
        shown := kept.drop text.length
        separate := text.length < read.length && !text.getLast?.any isLineEnd }

end PostMarkup.Markdown
