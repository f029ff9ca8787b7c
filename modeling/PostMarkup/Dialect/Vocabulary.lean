import PostMarkup.Text.Basic

namespace PostMarkup.Dialect

/-- The heading level that a sectioning element sets for the headings inside it. -/
inductive SectionLevel
  | two
  | three
  | four
deriving DecidableEq

namespace SectionLevel

def digit : SectionLevel → Char
  | two => '2'
  | three => '3'
  | four => '4'

end SectionLevel

/-- What becomes of an element that is not written under its own name. -/
inductive Meaning
  | renamed (name : Text)
  | sectioning (level : SectionLevel)
  | heading
deriving DecidableEq

/-- Elements with a meaning of their own. Every other element keeps its name. -/
def meaning? (source : Text) : Option Meaning :=
  match String.ofList source with
  | "example" => some (.renamed "pre".toList)
  | "quote" => some (.renamed "blockquote".toList)
  | "link" => some (.renamed "a".toList)
  | "center" => some (.renamed "div".toList)
  | "div1" => some (.sectioning .two)
  | "div2" => some (.sectioning .three)
  | "div3" => some (.sectioning .four)
  | "head" => some .heading
  | _ => none

/-- The name of a heading in a section. Outside every section it is a bare `h`. -/
def headingName (level : Option SectionLevel) : Text :=
  'h' :: (level.map SectionLevel.digit).toList

/-- The name under which an element is written, if it is written at all. -/
def outputName? (level : Option SectionLevel) (source : Text) : Option Text :=
  match meaning? source with
  | some (.renamed name) => some name
  | some (.sectioning _) => none
  | some .heading => some (headingName level)
  | none => some source

end PostMarkup.Dialect
