import PostMarkup.SkipZone

namespace PostMarkup

/-- Which text of a tag sequence may be typographed. A policy follows the tags and knows nothing about
    the text. -/
structure TextPolicy (σ : Type) where
  start : σ
  opened : Text → σ → σ
  closed : Text → σ → σ
  typographs : σ → Bool

/-- Everything outside the skip zone is typographed. -/
def TextPolicy.skipping (skips : SkipSet) : TextPolicy SkipZone where
  start := {}
  opened name zone := if name ∈ skips then (zone.enter name).2 else zone
  closed name zone := (zone.exit name).2
  typographs zone := !zone.isActive

/-- Elements that have neither content nor an end tag. -/
def voidElements : List Text :=
  ["area", "base", "br", "col", "embed", "hr", "img", "input", "link", "meta", "source", "track",
    "wbr"].map String.toList

/-- Elements whose own text the inline policy typographs. -/
def inlineElements : List Text :=
  ["p", "div", "span", "a", "dt", "dd", "li", "i", "b", "em", "strong", "small", "h1", "h2", "h3",
    "h4", "h5", "h6", "td", "th"].map String.toList

/-- The open elements after an end tag, innermost first: the nearest element of that name closes,
    and with it all that are inside it. An end tag that matches nothing changes nothing. -/
def closeNearest (name : Text) (opens : List Text) : List Text :=
  if name ∈ opens then (opens.dropWhile (· ≠ name)).tail else opens

/-- Text is typographed if its innermost open element is an inline element. Text outside every
    element is left alone. -/
def TextPolicy.innermost : TextPolicy (List Text) where
  start := []
  opened name opens := if name ∈ voidElements then opens else name :: opens
  closed := closeNearest
  typographs opens := opens.head?.any (· ∈ inlineElements)

/-- No text is typographed. -/
def TextPolicy.untouched : TextPolicy Unit where
  start := ()
  opened _ _ := ()
  closed _ _ := ()
  typographs _ := false

end PostMarkup
