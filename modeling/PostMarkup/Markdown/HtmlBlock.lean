import PostMarkup.Markdown.HtmlSpan

namespace PostMarkup.Markdown

/-- Where a block of HTML ends. -/
inductive HtmlEnd
  /-- After the line that has this text in it. -/
  | mark (text : Text)
  /-- Before the next blank line. -/
  | blankLine

/-- Elements whose text may have blank lines in it. -/
def verbatimElements : List String := ["pre", "style", "script", "textarea"]

/-- Elements that begin a block, wherever their tag stands on the line. -/
def blockElements : List String :=
  ["address", "article", "aside", "base", "basefont", "blockquote", "body", "caption", "center",
   "col", "colgroup", "dd", "details", "dialog", "dir", "div", "dl", "dt", "fieldset", "figcaption",
   "figure", "footer", "form", "frame", "frameset", "h1", "h2", "h3", "h4", "h5", "h6", "head",
   "header", "hr", "html", "iframe", "legend", "li", "link", "main", "menu", "menuitem", "nav",
   "noframes", "ol", "optgroup", "option", "p", "param", "search", "section", "summary", "table",
   "tbody", "td", "tfoot", "th", "thead", "title", "tr", "track", "ul"]

/-- The end tag that ends a block, if the start tag of a verbatim element begins it. -/
def verbatimEnd? (s : Text) : Option Text :=
  verbatimElements.findSome? fun name =>
    match Text.afterAnyCase? name.toList s with
    | some rest =>
      if rest.head?.all fun c => isGap c || c = '>' then
        some ("</".toList ++ name.toList ++ ['>'])
      else none
    | none => none

/-- The text that ends a block which may have blank lines in it. -/
def endMark? (s : Text) : Option Text :=
  match verbatimEnd? s with
  | some mark => some mark
  | none =>
    match s with
    | '!' :: '-' :: '-' :: _ => some "-->".toList
    | '?' :: _ => some "?>".toList
    | '!' :: c :: rest =>
      if c.isAlpha then some ['>']
      else if c = '[' && (Text.after? "CDATA[".toList rest).isSome then some "]]>".toList
      else none
    | _ => none

/-- A tag of a block element, as far as its name goes. -/
def opensBlockElement (s : Text) : Bool :=
  let s := if s.head? = some '/' then s.tail else s
  let name := s.takeWhile Char.isAlphanum
  let rest := s.drop name.length
  blockElements.contains (String.ofList (Text.lower name)) &&
    (rest.head?.all (fun c => c = ' ' || c = '\t' || c = '>' || isLineEnd c) ||
      (Text.after? "/>".toList rest).isSome)

/-- Whether HTML at the head of a line ends a paragraph, and where it ends itself. -/
def strongHtmlEnd? (s : Text) : Option HtmlEnd :=
  match endMark? s with
  | some mark => some (.mark mark)
  | none => if opensBlockElement s then some .blankLine else none

/-- Where the HTML ends that begins a block here. Any tag alone on its line begins one. -/
def htmlEnd? (s : Text) : Option HtmlEnd :=
  match strongHtmlEnd? s with
  | some last => some last
  | none => if (afterTag? (restOfLine s)).any isBlankLine then some .blankLine else none

end PostMarkup.Markdown
