import PostMarkup.Converted
import PostMarkup.Dialect.Decoration
import PostMarkup.Dialect.Reading
import PostMarkup.Dialect.Vocabulary
import PostMarkup.Text.Escape
import PostMarkup.TextPolicy
import PostMarkup.Typography.RuleSet

namespace PostMarkup.Dialect

/-- A piece of the written document. -/
inductive Piece
  | startTag (name : Text) (attributes : List Attribute)
  | endTag (name : Text)
  /-- Character data in its final form. -/
  | text (written : Text)
  | directive (written : Text)
deriving DecidableEq

def Piece.write : Piece → Text
  | startTag name attributes => '<' :: name ++ attributes.flatMap Attribute.write ++ ['>']
  | endTag name => '<' :: '/' :: name ++ ['>']
  | text written => written
  | directive written => written

/-- What the tags before a place leave behind: the level of the section, and the skip zone. -/
structure Place where
  level : Option SectionLevel := none
  zone : SkipZone := {}
deriving DecidableEq

namespace Place

/-- The place after the start tag of an element. -/
def enter (place : Place) (source : Text) : Place where
  level :=
    match meaning? source with
    | some (.sectioning level) => some level
    | _ => place.level
  zone := (TextPolicy.skipping .dialect).opened source place.zone

/-- The place after the end tag of an element. Sections do not nest: the end of any of them leaves
    no level in force. -/
def leave (place : Place) (source : Text) : Place where
  level :=
    match meaning? source with
    | some (.sectioning _) => none
    | _ => place.level
  zone := (TextPolicy.skipping .dialect).closed source place.zone

end Place

/-- Values keep their written form. A double quote, which only single quotes can hold, is escaped
    for the double quotes of the output. -/
def requote (entry : Attribute) : Attribute :=
  ⟨entry.key, entry.value.flatMap fun c => if c = '"' then "&quot;".toList else [c]⟩

/-- The attributes of an element that is written as `output`. The defaults stand in only where the
    source gives none. -/
def outputAttributes (source output : Text) (attributes : List Attribute) : List Attribute :=
  decorate output <|
    match attributes with
    | [] => (defaultAttributes? source).getD []
    | _ => attributes.map requote

/-- The start tag that an element is written with, if any. -/
def startPieces (place : Place) (source : Text) (attributes : List Attribute) : List Piece :=
  match outputName? place.level source with
  | some output => [.startTag output (outputAttributes source output attributes)]
  | none => []

/-- The end tag that an element is written with, if any. -/
def endPieces (place : Place) (source : Text) : List Piece :=
  match outputName? place.level source with
  | some output => [.endTag output]
  | none => []

/-- A stretch of character data, typographed outside the skip zone. -/
def textPieces (place : Place) (data : Text) : List Piece :=
  match data with
  | [] => []
  | _ =>
    [.text (if place.zone.isActive then data else Typography.RuleSet.dialect.apply data)]

/-- The character data of an event in escaped form, or nothing for markup. Loose characters are
    escaped only in a skip zone, literal ones everywhere. -/
def characterData? (place : Place) : Event → Option Text
  | .character c => some (if place.zone.isActive then escapeText [c] else [c])
  | .reference name => some ('&' :: name ++ [';'])
  | .literal content => some (escapeText content)
  | _ => none

/-- The pieces of markup, and the place after it. -/
def markup (place : Place) : Event → List Piece × Place
  | .startTag source attributes => (startPieces place source attributes, place.enter source)
  | .emptyTag source attributes =>
    let inside := place.enter source
    (startPieces place source attributes ++ endPieces inside source, inside.leave source)
  | .endTag source => (endPieces place source, place.leave source)
  | .directive written => ([.directive written], place)
  | _ => ([], place)

/-- The character data before the first markup, and the pieces from that markup on. -/
def split (place : Place) : List Event → Text × List Piece
  | [] => ([], [])
  | event :: events =>
    match characterData? place event with
    | some data =>
      let later := split place events
      (data ++ later.1, later.2)
    | none =>
      let (written, next) := markup place event
      let later := split next events
      ([], written ++ textPieces next later.1 ++ later.2)

/-- The pieces that a list of events is written as. -/
def pieces (events : List Event) : List Piece :=
  let place : Place := {}
  let (data, later) := split place events
  textPieces place data ++ later

/-- Converts a dialect document. A byte order mark at its head is dropped and not counted. -/
def convert (input : Text) : Converted :=
  let s := input.dropByteOrderMark
  let reading := read s
  { html := (pieces reading.events).flatMap Piece.write
    failure := reading.failure.map fun (fault, remaining) =>
      .malformed (s.byteSize - remaining.byteSize) fault }

end PostMarkup.Dialect
