import PostMarkup.Converted
import PostMarkup.Html.Writing
import PostMarkup.Markdown.InlineBlock
import PostMarkup.Markdown.InlineHtml

namespace PostMarkup.Markdown

/-- A text that begins a line, given whether one begins here. -/
def startLine (fresh : Bool) (s : Text) : Text := if fresh then s else '\n' :: s

/-- Whether a line begins after a text, given whether one began before it. -/
def endsLine (fresh : Bool) (s : Text) : Bool :=
  match s.getLast? with
  | some c => c = '\n'
  | none => fresh

/-- The box of a task. -/
def taskHtml (done : Bool) : Text :=
  "<input disabled=\"\" type=\"checkbox\"".toList ++
    (if done then " checked=\"\"".toList else []) ++ "/>\n".toList

/-- The box of a task, if the block has one. -/
def boxHtml : Option Bool → Text
  | some done => taskHtml done
  | none => []

/-- The attributes of a heading as they stand in its tag. -/
def HeadingAttributes.html (attributes : HeadingAttributes) : Text :=
  let quoted (key value : Text) : Text := Attribute.write ⟨key, value⟩
  let id := (attributes.id.map fun id => quoted "id".toList (escapeQuoted id)).getD []
  let classes :=
    if attributes.classes.isEmpty then []
    else quoted "class".toList ([' '].intercalate (attributes.classes.map escapeQuoted))
  id ++ classes ++
    attributes.others.flatMap fun entry =>
      quoted (escapeQuoted entry.key) (escapeQuoted entry.value)

/-- The style that aligns a cell. -/
def Alignment.html : Alignment → Text
  | none => []
  | left => " style=\"text-align: left\"".toList
  | center => " style=\"text-align: center\"".toList
  | right => " style=\"text-align: right\"".toList

/-- The cells of a row, each aligned as its column is. -/
def cellsHtml (tag : String) (columns : List Alignment) (cells : List (List Inline)) : Text :=
  (columns.zip cells).flatMap fun (alignment, cell) =>
    '<' :: tag.toList ++ alignment.html ++ '>' :: Inline.toHtmlAll cell ++
      '<' :: '/' :: tag.toList ++ ['>']

/-- A table. -/
def tableHtml (columns : List Alignment) (head : List (List Inline))
    (rows : List (List (List Inline))) : Text :=
  "<table><thead><tr>".toList ++ cellsHtml "th" columns head ++
    "</tr></thead><tbody>\n".toList ++
    (rows.flatMap fun row =>
      "<tr>".toList ++ cellsHtml "td" columns row ++ "</tr>\n".toList) ++
    "</tbody></table>\n".toList

/-- The start tag of a list. Numbering from one is not said. -/
def listStart : Option Nat → Text
  | none => "<ul>\n".toList
  | some 1 => "<ol>\n".toList
  | some start => "<ol start=\"".toList ++ decimal start ++ "\">\n".toList

/-- The end tag of a list. -/
def listEnd (start : Option Nat) : Text := (if start.isSome then "</ol>\n" else "</ul>\n").toList

namespace Block

mutual

/-- A block as HTML, given whether a line begins where it stands. -/
def toHtml (fresh : Bool) : Block (List Inline) → Text
  | paragraph true box content => boxHtml box ++ Inline.toHtmlAll content
  | paragraph false box content =>
    startLine fresh "<p>".toList ++ boxHtml box ++ Inline.toHtmlAll content ++ "</p>\n".toList
  | heading level attributes box content =>
    startLine fresh ('<' :: 'h' :: decimal level) ++ attributes.html ++ ['>'] ++ boxHtml box ++
      Inline.toHtmlAll content ++ "</h".toList ++ decimal level ++ ">\n".toList
  | code language content =>
    startLine fresh "<pre><code".toList ++
      (if language.isEmpty then []
        else " class=\"language-".toList ++ escapeQuoted language ++ ['"']) ++
      ['>'] ++ escapeText content ++ "</code></pre>\n".toList
  | html content => content
  | rule => startLine fresh "<hr />\n".toList
  | quote inner =>
    startLine fresh "<blockquote>\n".toList ++ toHtmlAll true inner ++ "</blockquote>\n".toList
  | list start items =>
    startLine fresh (listStart start) ++ toHtmlAll true items ++ listEnd start
  | item inner =>
    startLine fresh "<li>".toList ++ toHtmlAll false inner ++ "</li>\n".toList
  | task done => taskHtml done
  | table columns head rows => tableHtml columns head rows

/-- Some blocks as HTML, one after the other. -/
def toHtmlAll (fresh : Bool) : List (Block (List Inline)) → Text
  | [] => []
  | block :: rest =>
    let written := toHtml fresh block
    written ++ toHtmlAll (endsLine fresh written) rest

end

end Block

/-- A document as HTML. -/
def Document.toHtml (document : Document) : Text := Block.toHtmlAll true document.inlineBlocks

/-- Whether a text has a part equal to `mark`. -/
def mentions (mark s : Text) : Bool := (Text.upTo? mark s).isSome

/-- HTML in which every table has the table class, tables that were written as HTML among them. Only
    HTML that may hold a table is read at all. -/
def withTableClass (html : Text) : Text :=
  if mentions "<table".toList html then Html.withTableClasses html else html

/-- A Markdown document as an HTML fragment. Every text is a document. -/
def render (input : Text) : Text := withTableClass (Document.ofText input).toHtml

end PostMarkup.Markdown
