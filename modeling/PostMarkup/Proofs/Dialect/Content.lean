import Mathlib.Data.List.Infix
import PostMarkup.Proofs.Dialect.Reading
import PostMarkup.Proofs.Dialect.TagReading

namespace PostMarkup.Dialect

/-- The content of a document or of an element, first part first. -/
inductive Content
  | nothing
  | text (s : Text) (rest : Content)
  | reference (name : Text) (rest : Content)
  /-- A CDATA section. -/
  | literal (s : Text) (rest : Content)
  | comment (s : Text) (rest : Content)
  /-- An element without content may be its own end tag. -/
  | element (name : Text) (attributes : List QuotedAttribute) (selfClosed : Bool)
    (inside rest : Content)
deriving DecidableEq

namespace Content

def literalSource (s : Text) : Text := "<![CDATA[".toList ++ s ++ "]]>".toList

def commentSource (s : Text) : Text := "<!--".toList ++ s ++ "-->".toList

def emptyTagSource (name : Text) (attributes : List QuotedAttribute) : Text :=
  '<' :: tagText name attributes ++ "/>".toList

def startTagSource (name : Text) (attributes : List QuotedAttribute) : Text :=
  '<' :: tagText name attributes ++ ['>']

def endTagSource (name : Text) : Text := '<' :: '/' :: name ++ ['>']

def source : Content → Text
  | nothing => []
  | text s rest => s ++ rest.source
  | reference name rest => '&' :: name ++ [';'] ++ rest.source
  | literal s rest => literalSource s ++ rest.source
  | comment s rest => commentSource s ++ rest.source
  | element name attributes true _ rest => emptyTagSource name attributes ++ rest.source
  | element name attributes false inside rest =>
    startTagSource name attributes ++ (inside.source ++ (endTagSource name ++ rest.source))

def WellFormed : Content → Prop
  | nothing => True
  | text s rest => (∀ c ∈ s, c ≠ '<' ∧ c ≠ '&') ∧ rest.WellFormed
  | reference name rest => (∀ c ∈ name, c ≠ ';' ∧ c ≠ '&' ∧ c ≠ '<') ∧ rest.WellFormed
  | literal s rest => ¬ "]]>".toList <:+: s ∧ rest.WellFormed
  | comment s rest => ¬ "-->".toList <:+: s ∧ rest.WellFormed
  | element name attributes selfClosed inside rest =>
    IsPlainName name ∧ (∀ entry ∈ attributes, entry.WellFormed) ∧
      (attributes.map fun entry => entry.key).Nodup ∧ (selfClosed → inside = nothing) ∧
      inside.WellFormed ∧ rest.WellFormed

instance decidableWellFormed : DecidablePred WellFormed
  | nothing => isTrue trivial
  | text s rest =>
    have := decidableWellFormed rest
    have : Decidable (∀ c ∈ s, c ≠ '<' ∧ c ≠ '&') := List.decidableBAll _ s
    inferInstanceAs (Decidable ((∀ c ∈ s, c ≠ '<' ∧ c ≠ '&') ∧ rest.WellFormed))
  | reference name rest =>
    have := decidableWellFormed rest
    have : Decidable (∀ c ∈ name, c ≠ ';' ∧ c ≠ '&' ∧ c ≠ '<') := List.decidableBAll _ name
    inferInstanceAs (Decidable ((∀ c ∈ name, c ≠ ';' ∧ c ≠ '&' ∧ c ≠ '<') ∧ rest.WellFormed))
  | literal s rest =>
    have := decidableWellFormed rest
    inferInstanceAs (Decidable (¬ "]]>".toList <:+: s ∧ rest.WellFormed))
  | comment s rest =>
    have := decidableWellFormed rest
    inferInstanceAs (Decidable (¬ "-->".toList <:+: s ∧ rest.WellFormed))
  | element name attributes selfClosed inside rest =>
    have := decidableWellFormed inside
    have := decidableWellFormed rest
    inferInstanceAs (Decidable (IsPlainName name ∧ (∀ entry ∈ attributes, entry.WellFormed) ∧
      (attributes.map fun entry => entry.key).Nodup ∧ (selfClosed → inside = nothing) ∧
      inside.WellFormed ∧ rest.WellFormed))

/-- The events that reading the source gives. -/
def events : Content → List Event
  | nothing => []
  | text s rest => s.map .character ++ rest.events
  | reference name rest => .reference name :: rest.events
  | literal s rest => .literal s :: rest.events
  | comment s rest => .directive (commentSource s) :: rest.events
  | element name attributes true _ rest =>
    .emptyTag name (attributes.map QuotedAttribute.toAttribute) :: rest.events
  | element name attributes false inside rest =>
    .startTag name (attributes.map QuotedAttribute.toAttribute) ::
      (inside.events ++ .endTag name :: rest.events)

theorem readFrom_text {s : Text} (hs : ∀ c ∈ s, c ≠ '<' ∧ c ≠ '&') (opens : List Text) (t : Text) :
    readFrom opens (s ++ t) = (readFrom opens t).precededBy (s.map .character) := by
  induction s with
  | nil => rw [List.nil_append, List.map_nil, Reading.precededBy_nil]
  | cons c s ih =>
    obtain ⟨hangle, hampersand⟩ := hs c (by simp)
    have hrest := ih fun d hd => hs d (by simp [hd])
    have hopens : openAfter opens (.character c) = .ok opens := rfl
    have hsource : c :: s ++ t = [c] ++ (s ++ t) := rfl
    rw [hsource, readFrom_of_spells (spells_character hangle hampersand) hopens, hrest,
      Reading.precededBy_precededBy, List.singleton_append, List.map_cons]

theorem readFrom_literalSource {s : Text} (hs : ¬ "]]>".toList <:+: s) (opens : List Text)
    (t : Text) :
    readFrom opens (literalSource s ++ t) = (readFrom opens t).precededBy [.literal s] := by
  have hspells : Spells (literalSource s) (.literal s) :=
    spells_literal (Text.upTo?_of_not_infix (by decide : '>' ∉ "]]".toList) hs)
  exact readFrom_of_spells hspells rfl t

/-- The source of well-formed content is read as its events, with the same elements open before and
    after it. -/
theorem readFrom_source {content : Content} (h : content.WellFormed) (opens : List Text) (t : Text) :
    readFrom opens (content.source ++ t) = (readFrom opens t).precededBy content.events := by
  induction content generalizing opens t with
  | nothing => rw [source, events, List.nil_append, Reading.precededBy_nil]
  | text s rest ih =>
    obtain ⟨htext, hrest⟩ := h
    rw [source, List.append_assoc, readFrom_text htext, ih hrest, Reading.precededBy_precededBy,
      events]
  | reference name rest ih =>
    obtain ⟨hname, hrest⟩ := h
    have hopens : openAfter opens (.reference name) = .ok opens := rfl
    rw [source, List.append_assoc, readFrom_of_spells (spells_reference hname) hopens, ih hrest,
      Reading.precededBy_precededBy, List.singleton_append, events]
  | literal s rest ih =>
    obtain ⟨hs, hrest⟩ := h
    rw [source, List.append_assoc, readFrom_literalSource hs, ih hrest,
      Reading.precededBy_precededBy, List.singleton_append, events]
  | comment s rest ih =>
    obtain ⟨hs, hrest⟩ := h
    have hopens : openAfter opens (.directive (commentSource s)) = .ok opens := rfl
    have hspells : Spells (commentSource s) (.directive (commentSource s)) :=
      spells_comment (Text.upTo?_of_not_infix (by decide : '>' ∉ "--".toList) hs)
    rw [source, List.append_assoc, readFrom_of_spells hspells hopens, ih hrest,
      Reading.precededBy_precededBy, List.singleton_append, events]
  | element name attributes selfClosed inside rest ihinside ihrest =>
    obtain ⟨hname, hattributes, hkeys, -, hinside, hrest⟩ := h
    have hreadable : ∀ entry ∈ attributes, entry.Readable := fun entry hentry =>
      (hattributes entry hentry).readable
    cases selfClosed with
    | true =>
      have hopens : openAfter opens (.emptyTag name (attributes.map QuotedAttribute.toAttribute)) =
          .ok opens := rfl
      have hspells := spells_emptyTagText hname hreadable hkeys
      rw [source, List.append_assoc, emptyTagSource, readFrom_of_spells hspells hopens,
        ihrest hrest, Reading.precededBy_precededBy, List.singleton_append, events]
    | false =>
      have hopened : openAfter opens (.startTag name (attributes.map QuotedAttribute.toAttribute)) =
          .ok (name :: opens) := rfl
      have hclosed : openAfter (name :: opens) (.endTag name) = .ok opens := by
        simp only [openAfter, if_true]
      have hstart := spells_tagText hname hreadable hkeys
      have hend : Spells (endTagSource name) (.endTag name) := spells_endTag_of_isPlainName hname
      rw [source, List.append_assoc, List.append_assoc, List.append_assoc, startTagSource,
        readFrom_of_spells hstart hopened, ihinside hinside, readFrom_of_spells hend hclosed,
        ihrest hrest]
      simp only [Reading.precededBy_precededBy, events, List.cons_append, List.nil_append]

end Content

end PostMarkup.Dialect
