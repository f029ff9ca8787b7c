import PostMarkup.Dialect.Conversion
import PostMarkup.Proofs.Dialect.TagReading

namespace PostMarkup.Dialect

theorem eq_toList_of_ofList {name : Text} {spelled : String} (heq : String.ofList name = spelled) :
    name = spelled.toList := by
  rw [← heq, String.toList_ofList]

/-- Names that the dialect renames, takes as sections or headings, or adds attributes to. -/
def meaningfulNames : List Text :=
  ["example", "quote", "link", "center", "div1", "div2", "div3", "head", "table", "acronym", "a"].map
    String.toList

/-- A Latin letter, and then Latin letters and digits, and nothing that the dialect knows. -/
def IsNeutralName (name : Text) : Prop := IsPlainName name ∧ name ∉ meaningfulNames

instance : DecidablePred IsNeutralName := fun _ => inferInstanceAs (Decidable (_ ∧ _))

namespace IsNeutralName

variable {name : Text} (hname : IsNeutralName name)

include hname

/-- A name that is spelled like a meaningful one is not neutral. -/
theorem ofList_ne {spelled : String} (hspelled : spelled.toList ∈ meaningfulNames) :
    String.ofList name ≠ spelled := by
  intro heq
  exact hname.2 (eq_toList_of_ofList heq ▸ hspelled)

theorem meaning?_eq_none : meaning? name = none := by
  unfold meaning?
  split
  case h_9 => rfl
  all_goals exact absurd ‹_› (hname.ofList_ne (by decide))

theorem defaultAttributes?_eq_none : defaultAttributes? name = none := by
  unfold defaultAttributes?
  split
  case h_3 => rfl
  all_goals exact absurd ‹_› (hname.ofList_ne (by decide))

theorem decorate_eq (attributes : List Attribute) : decorate name attributes = attributes := by
  unfold decorate
  split
  case h_4 => rfl
  all_goals exact absurd ‹_› (hname.ofList_ne (by decide))

theorem outputName?_eq (level : Option SectionLevel) : outputName? level name = some name := by
  simp [outputName?, hname.meaning?_eq_none]

theorem outputAttributes_eq (attributes : List Attribute) :
    outputAttributes name name attributes = attributes.map requote := by
  unfold outputAttributes
  rw [hname.decorate_eq]
  split
  · rw [hname.defaultAttributes?_eq_none]
    rfl
  · rfl

theorem startPieces_eq (place : Place) (attributes : List Attribute) :
    startPieces place name attributes = [.startTag name (attributes.map requote)] := by
  rw [startPieces, hname.outputName?_eq]
  exact congrArg (fun written => [Piece.startTag name written]) (hname.outputAttributes_eq attributes)

theorem endPieces_eq (place : Place) : endPieces place name = [.endTag name] := by
  rw [endPieces, hname.outputName?_eq]

end IsNeutralName

end PostMarkup.Dialect
