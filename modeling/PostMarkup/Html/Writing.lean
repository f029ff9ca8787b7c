import PostMarkup.Html.Tokens
import PostMarkup.Text.Escape
import PostMarkup.TextPolicy
import PostMarkup.Typography.RuleSet

namespace PostMarkup.Html

/-- A piece of the written text. -/
inductive Piece
  | startTag (name : Text) (attributes : List Attribute) (selfClosing : Bool)
  | endTag (name : Text)
  | comment (content : Text)
  /-- A text node in its final form. -/
  | text (written : Text)
deriving DecidableEq

/-- An attribute with its value escaped, a space before it. -/
def writeAttribute (entry : Attribute) : Text :=
  Attribute.write ⟨entry.key, escapeValue entry.value⟩

def Piece.write : Piece → Text
  | startTag name attributes selfClosing =>
    '<' :: name ++ attributes.flatMap writeAttribute ++
      (if selfClosing then "/>".toList else ['>'])
  | endTag name => '<' :: '/' :: name ++ ['>']
  | comment content => "<!--".toList ++ content ++ "-->".toList
  | text written => written

/-- How HTML is written back. Text that the policy holds back is always escaped in full. -/
structure Style (σ : Type) where
  policy : TextPolicy σ
  rules : Typography.RuleSet
  /-- The escape of text before the rules see it. -/
  escape : Text → Text := escapeText
  keepComments : Bool := false
  /-- The content of script and style elements is copied as it is. -/
  verbatimRawText : Bool := false
  /-- The attributes of a start tag as they are to be written, given its name. -/
  adjust : Text → List Attribute → List Attribute := fun _ attributes => attributes

/-- What the tags before a place leave behind. -/
structure Place (σ : Type) where
  policyState : σ
  inRawText : Bool := false

namespace Style

variable {σ : Type} (style : Style σ)

def start : Place σ := ⟨style.policy.start, false⟩

/-- A text node in its final form. -/
def writeText (place : Place σ) (s : Text) : Text :=
  if style.verbatimRawText && place.inRawText then s
  else if style.policy.typographs place.policyState then style.rules.apply (style.escape s)
  else escapeText s

/-- The piece of a text node. An empty node leaves none. -/
def textPieces (place : Place σ) (s : Text) : List Piece :=
  match s with
  | [] => []
  | _ => [.text (style.writeText place s)]

/-- The place after a start tag. A self-closing tag has no content and changes nothing. -/
def afterStart (place : Place σ) (name : Text) (selfClosing : Bool) : Place σ :=
  if selfClosing then place
  else
    { policyState := style.policy.opened name place.policyState
      inRawText :=
        match contentModel? name with
        | some model => model ≠ .escapableText
        | none => place.inRawText }

/-- The place after an end tag. -/
def afterEnd (place : Place σ) (name : Text) : Place σ :=
  ⟨style.policy.closed name place.policyState, false⟩

/-- The characters of the text node at the head of some tokens, and the pieces from its end on.
    Parse errors and U+0000 are passed over without ending the node. -/
def split (place : Place σ) : List Token → Text × List Piece
  | [] => ([], [])
  | .text s :: tokens =>
    let later := split place tokens
    (s ++ later.1, later.2)
  | .null :: tokens => split place tokens
  | .parseError :: tokens => split place tokens
  | .startTag name attributes selfClosing :: tokens =>
    let next := style.afterStart place name selfClosing
    let later := split next tokens
    ([], .startTag name (style.adjust name attributes) selfClosing ::
      style.textPieces next later.1 ++ later.2)
  -- An end tag is written without attributes, whatever it was read with.
  | .endTag name _ _ :: tokens =>
    let next := style.afterEnd place name
    let later := split next tokens
    ([], .endTag name :: style.textPieces next later.1 ++ later.2)
  | .comment content :: tokens =>
    let later := split place tokens
    ([], (if style.keepComments then [.comment content] else []) ++
      style.textPieces place later.1 ++ later.2)
  | .documentType :: tokens =>
    let later := split place tokens
    ([], style.textPieces place later.1 ++ later.2)

/-- The pieces of a token list. -/
def pieces (tokens : List Token) : List Piece :=
  let later := style.split style.start tokens
  style.textPieces style.start later.1 ++ later.2

/-- The written form of a token list. -/
def write (tokens : List Token) : Text := (style.pieces tokens).flatMap Piece.write

end Style

/-- Stored HTML gets a typographic pass outside its skip zones. Ampersands are written as they are
    read, and comments are dropped. -/
def stored : Style SkipZone where
  policy := .skipping .html
  rules := .html
  escape := escapeAngles

/-- Titles and teasers are typographed inside inline elements only. -/
def inlineFragment : Style (List Text) where
  policy := .innermost
  rules := .inline
  keepComments := true
  verbatimRawText := true

/-- Every table gets the table class in place of any class of its own; nothing else changes. -/
def tableClasses : Style Unit where
  policy := .untouched
  rules := .html
  keepComments := true
  verbatimRawText := true
  adjust name attributes :=
    if name = "table".toList then Attribute.set "class".toList tableClass attributes
    else attributes

/-- The typographic pass over stored HTML. -/
def typographStored (input : Text) : Text := stored.write (tokenize input)

/-- The typographic pass over a title or a teaser. -/
def typographFragment (input : Text) : Text := inlineFragment.write (tokenize input)

/-- The pass that gives every table its class. -/
def withTableClasses (input : Text) : Text := tableClasses.write (tokenize input)

end PostMarkup.Html
