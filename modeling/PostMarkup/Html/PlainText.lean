import PostMarkup.Html.Tokens
import PostMarkup.TextPolicy

namespace PostMarkup.Html

/-- How deep a place lies in elements, and whether a script or style hides it. The depth counts
    tags, so an end tag that matches nothing lowers it as well. -/
structure Depth where
  elements : Nat := 0
  hidden : Bool := false
deriving DecidableEq

namespace Depth

/-- Elements whose content is not for readers. -/
def hides (name : Text) : Bool := name = "script".toList || name = "style".toList

/-- Text outside every element does not count. -/
def shows (depth : Depth) : Bool := 0 < depth.elements && !depth.hidden

def afterStart (depth : Depth) (name : Text) (selfClosing : Bool) : Depth :=
  if selfClosing then depth
  else
    { elements := if name ∈ voidElements then depth.elements else depth.elements + 1
      hidden := depth.hidden || hides name }

def afterEnd (depth : Depth) (name : Text) : Depth :=
  { elements := depth.elements - 1
    hidden := depth.hidden && !hides name }

/-- The depth after a token. -/
def after (depth : Depth) : Token → Depth
  | .startTag name _ selfClosing => depth.afterStart name selfClosing
  | .endTag name _ _ => depth.afterEnd name
  | _ => depth

end Depth

/-- A chunk without the blanks around it. A blank chunk is none. -/
def trimmedChunk (s : Text) : List Text :=
  match s.trim with
  | [] => []
  | chunk => [chunk]

/-- The visible characters before the first token that ends a chunk, and the chunks after it. -/
def splitChunks (depth : Depth) : List Token → Text × List Text
  | [] => ([], [])
  | .text s :: tokens =>
    let later := splitChunks depth tokens
    ((if depth.shows then s else []) ++ later.1, later.2)
  | token :: tokens =>
    let later := splitChunks (depth.after token) tokens
    ([], trimmedChunk later.1 ++ later.2)

/-- The chunks of visible text. -/
def chunks (tokens : List Token) : List Text :=
  let later := splitChunks {} tokens
  trimmedChunk later.1 ++ later.2

/-- The visible text of a fragment, its chunks joined by single spaces. -/
def plainText (input : Text) : Text := [' '].intercalate (chunks (tokenize input))

end PostMarkup.Html
