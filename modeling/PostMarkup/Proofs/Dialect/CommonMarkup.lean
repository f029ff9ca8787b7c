import PostMarkup.Proofs.Dialect.Concatenation
import PostMarkup.Proofs.Dialect.NeutralName
import PostMarkup.Proofs.Dialect.OrdinaryMarkup
import PostMarkup.Proofs.Dialect.Transduction

namespace PostMarkup

/-- Elements for code, whose text both languages leave alone. -/
def SkipSet.code : SkipSet := ["pre".toList, "code".toList]

namespace Dialect

/-- Names of elements that one of the two languages treats in a way of its own. -/
def peculiarNames : List Text :=
  ["example", "quote", "link", "center", "div1", "div2", "div3", "head", "table", "acronym", "a",
    "script", "style", "textarea", "title", "xmp", "iframe", "noembed", "noframes"].map
    String.toList

def IsCommonName (name : Text) : Prop := IsLowerName name ∧ name ∉ peculiarNames

instance : DecidablePred IsCommonName := fun _ => inferInstanceAs (Decidable (_ ∧ _))

/-- An attribute that is written back as it stands. -/
def IsCommonAttribute (entry : Attribute) : Prop :=
  IsLowerName entry.key ∧ ∀ c ∈ entry.value, c ∉ "&<>\"'\x00\r".toList

instance : DecidablePred IsCommonAttribute := fun entry =>
  have : Decidable (∀ c ∈ entry.value, c ∉ "&<>\"'\x00\r".toList) := List.decidableBAll _ entry.value
  inferInstanceAs (Decidable (_ ∧ _))

/-- A character that stands for itself in running text. -/
def IsCommonCharacter (c : Char) : Prop := c ∉ "&<>\x00\r".toList

instance : DecidablePred IsCommonCharacter := fun _ => inferInstanceAs (Decidable (¬ _))

def Event.IsCommon : Event → Prop
  | .character c => IsCommonCharacter c
  | .startTag name attributes => IsCommonName name ∧
      (∀ entry ∈ attributes, IsCommonAttribute entry) ∧ (attributes.map Attribute.key).Nodup
  | .endTag name => IsCommonName name
  | _ => False

/-- An event of common markup in its written form. -/
def Event.source : Event → Text
  | .character c => [c]
  | .startTag name attributes => (Piece.startTag name attributes).write
  | .endTag name => (Piece.endTag name).write
  | _ => []

/-- A tag, the code zone that it leaves behind, and the text up to the next tag. -/
structure Segment where
  tag : Event
  zone : SkipZone
  text : Text

def Segment.write (typograph : Text → Text) (segment : Segment) : Text :=
  segment.tag.source ++ if segment.zone.isActive then segment.text else typograph segment.text

/-- The code zone after an event. -/
def zoneAfter (zone : SkipZone) : Event → SkipZone
  | .startTag name _ => (TextPolicy.skipping .code).opened name zone
  | .endTag name => (TextPolicy.skipping .code).closed name zone
  | _ => zone

/-- The text before the first tag, and the segments from that tag on. -/
def segments (zone : SkipZone) : List Event → Text × List Segment
  | [] => ([], [])
  | .character c :: events =>
    let later := segments zone events
    (c :: later.1, later.2)
  | tag :: events =>
    let later := segments (zoneAfter zone tag) events
    ([], ⟨tag, zoneAfter zone tag, later.1⟩ :: later.2)

theorem segments_cons_of_isMarkup {event : Event} (hevent : event.isMarkup = true)
    (zone : SkipZone) (events : List Event) :
    segments zone (event :: events) =
      ([], ⟨event, zoneAfter zone event, (segments (zoneAfter zone event) events).1⟩ ::
        (segments (zoneAfter zone event) events).2) := by
  cases event <;> first | rfl | contradiction

/-- Common events are characters and tags. -/
theorem Event.IsCommon.exists_character {event : Event} (h : event.IsCommon)
    (hmarkup : event.isMarkup = false) : ∃ c, event = .character c ∧ IsCommonCharacter c := by
  cases event with
  | character c => exact ⟨c, rfl, h⟩
  | _ => contradiction

namespace Content

/-- Elements with end tags of their own, common names and attributes in double quotes, around common
    characters. -/
def IsCommon : Content → Prop
  | nothing => True
  | text s rest => (∀ c ∈ s, IsCommonCharacter c) ∧ rest.IsCommon
  | element name attributes selfClosed inside rest =>
    IsCommonName name ∧
      (∀ entry ∈ attributes, entry.quote = '"' ∧ IsCommonAttribute entry.toAttribute) ∧
      (attributes.map fun entry => entry.key).Nodup ∧ selfClosed = false ∧
      inside.IsCommon ∧ rest.IsCommon
  | _ => False

instance decidableIsCommon : DecidablePred IsCommon
  | nothing => isTrue trivial
  | text s rest =>
    have := decidableIsCommon rest
    have : Decidable (∀ c ∈ s, IsCommonCharacter c) := List.decidableBAll _ s
    inferInstanceAs (Decidable ((∀ c ∈ s, IsCommonCharacter c) ∧ rest.IsCommon))
  | element name attributes selfClosed inside rest =>
    have := decidableIsCommon inside
    have := decidableIsCommon rest
    inferInstanceAs (Decidable (IsCommonName name ∧
      (∀ entry ∈ attributes, entry.quote = '"' ∧ IsCommonAttribute entry.toAttribute) ∧
      (attributes.map fun entry => entry.key).Nodup ∧ selfClosed = false ∧
      inside.IsCommon ∧ rest.IsCommon))
  | reference .. | literal .. | comment .. => isFalse id

/-- The source with the texts outside code typographed. -/
def typographed (typograph : Text → Text) (content : Content) : Text :=
  let parts := segments {} content.events
  typograph parts.1 ++ parts.2.flatMap (Segment.write typograph)

/-- The texts outside code. -/
def exposedTexts (content : Content) : List Text :=
  let parts := segments {} content.events
  parts.1 :: (parts.2.filter fun segment => !segment.zone.isActive).map Segment.text

/-- Only the texts outside code count. -/
theorem typographed_congr {typograph other : Text → Text} {content : Content}
    (htexts : ∀ s ∈ content.exposedTexts, typograph s = other s) :
    content.typographed typograph = content.typographed other := by
  obtain ⟨hlead, hsegments⟩ := List.forall_mem_cons.1 htexts
  have hwrite : ∀ segment ∈ (segments {} content.events).2,
      segment.write typograph = segment.write other := by
    intro segment hmem
    unfold Segment.write
    cases hzone : segment.zone.isActive with
    | true => rfl
    | false =>
      have hexposed : segment ∈ (segments {} content.events).2.filter
          fun segment => !segment.zone.isActive := List.mem_filter.2 ⟨hmem, by simp [hzone]⟩
      simpa using hsegments _ (List.mem_map_of_mem hexposed)
  rw [typographed, typographed, hlead, List.flatMap_congr hwrite]

end Content

/-- Segments lose nothing. -/
theorem segments_source (zone : SkipZone) {events : List Event}
    (hevents : ∀ event ∈ events, event.IsCommon) :
    (segments zone events).1 ++ (segments zone events).2.flatMap (Segment.write id) =
      events.flatMap Event.source := by
  induction events generalizing zone with
  | nil => rfl
  | cons event events ih =>
    obtain ⟨hevent, hlater⟩ := List.forall_mem_cons.1 hevents
    cases hmarkup : event.isMarkup with
    | true =>
      rw [segments_cons_of_isMarkup hmarkup]
      simpa [Segment.write] using ih (zoneAfter zone event) hlater
    | false =>
      obtain ⟨c, rfl, -⟩ := hevent.exists_character hmarkup
      simpa [segments, Event.source] using ih zone hlater

namespace Content

theorem isCommon_events {content : Content} (h : content.IsCommon) :
    ∀ event ∈ content.events, event.IsCommon := by
  induction content with
  | nothing => simp [events]
  | text s rest ih =>
    obtain ⟨hs, hrest⟩ := h
    refine List.forall_mem_append.2 ⟨fun event hmem => ?_, ih hrest⟩
    obtain ⟨c, hc, rfl⟩ := List.mem_map.1 hmem
    exact hs c hc
  | element name attributes selfClosed inside rest ihinside ihrest =>
    obtain ⟨hname, hattributes, hkeys, rfl, hinside, hrest⟩ := h
    have hcommon : ∀ entry ∈ attributes.map QuotedAttribute.toAttribute, IsCommonAttribute entry := by
      intro entry hentry
      obtain ⟨quoted, hquoted, rfl⟩ := List.mem_map.1 hentry
      exact (hattributes quoted hquoted).2
    have hdistinct : ((attributes.map QuotedAttribute.toAttribute).map Attribute.key).Nodup := by
      rwa [List.map_map]
    rw [events, List.forall_mem_cons, List.forall_mem_append, List.forall_mem_cons]
    exact ⟨⟨hname, hcommon, hdistinct⟩, ihinside hinside, hname, ihrest hrest⟩
  | _ => contradiction

theorem source_eq_flatMap {content : Content} (h : content.IsCommon) :
    content.source = content.events.flatMap Event.source := by
  induction content with
  | nothing => rfl
  | text s rest ih =>
    obtain ⟨-, hrest⟩ := h
    have htext : (s.map Event.character).flatMap Event.source = s := by
      simp [List.flatMap_map, Event.source]
    rw [source, events, List.flatMap_append, htext, ih hrest]
  | element name attributes selfClosed inside rest ihinside ihrest =>
    obtain ⟨hname, hattributes, hkeys, rfl, hinside, hrest⟩ := h
    have hquoted := flatMap_source_attributes fun entry hentry => (hattributes entry hentry).1
    have htag : startTagSource name attributes =
        (Event.startTag name (attributes.map QuotedAttribute.toAttribute)).source := by
      simp [startTagSource, tagText, Event.source, Piece.write, hquoted]
    rw [source, events, List.flatMap_cons, List.flatMap_append, List.flatMap_cons, ihinside hinside,
      ihrest hrest, htag]
    rfl
  | _ => contradiction

theorem IsCommon.wellFormed {content : Content} (h : content.IsCommon) : content.WellFormed := by
  induction content with
  | nothing => exact trivial
  | text s rest ih =>
    obtain ⟨hs, hrest⟩ := h
    refine ⟨fun c hc => ?_, ih hrest⟩
    have hcharacter := hs c hc
    constructor <;> rintro rfl <;> exact hcharacter (by decide)
  | element name attributes selfClosed inside rest ihinside ihrest =>
    obtain ⟨hname, hattributes, hkeys, hselfClosed, hinside, hrest⟩ := h
    refine ⟨hname.1.1, fun entry hentry => ?_, hkeys, by simp [hselfClosed], ihinside hinside,
      ihrest hrest⟩
    obtain ⟨hquote, hkey, hvalue⟩ := hattributes entry hentry
    have hunquoted : '"' ∉ entry.value := fun hmem => hvalue _ hmem (by decide)
    exact ⟨hkey.1, by rw [hquote]; rfl, by rwa [hquote]⟩
  | _ => contradiction

theorem typographed_id {content : Content} (h : content.IsCommon) :
    content.typographed id = content.source := by
  rw [source_eq_flatMap h]
  exact segments_source {} (isCommon_events h)

end Content

section

variable {name : Text} (hname : IsCommonName name)

include hname

theorem IsCommonName.isNeutral : IsNeutralName name :=
  ⟨hname.1.1, fun hmem => hname.2 ((by decide : meaningfulNames ⊆ peculiarNames) hmem)⟩

theorem IsCommonName.contentModel?_eq_none : Html.contentModel? name = none := by
  have hne {spelled : String} (hspelled : spelled.toList ∈ peculiarNames) :
      String.ofList name ≠ spelled := fun heq => hname.2 (eq_toList_of_ofList heq ▸ hspelled)
  unfold Html.contentModel?
  split
  case h_9 => rfl
  all_goals exact absurd ‹_› (hne (by decide))

/-- Of the sets of either language only the elements for code count. -/
theorem IsCommonName.opened_eq {skips : SkipSet} (hcode : SkipSet.code ⊆ skips)
    (hskips : skips ⊆ SkipSet.code ++ peculiarNames) (zone : SkipZone) :
    (TextPolicy.skipping skips).opened name zone =
      (TextPolicy.skipping .code).opened name zone := by
  have hiff : name ∈ skips ↔ name ∈ SkipSet.code := by
    refine ⟨fun hmem => ?_, fun hmem => hcode hmem⟩
    obtain hmem | hpeculiar := List.mem_append.1 (hskips hmem)
    · exact hmem
    · exact absurd hpeculiar hname.2
  simp only [TextPolicy.skipping, hiff]

theorem IsCommonName.enter_eq (place : Place) :
    place.enter name = ⟨place.level, (TextPolicy.skipping .code).opened name place.zone⟩ := by
  rw [← hname.opened_eq (by decide : SkipSet.code ⊆ SkipSet.dialect) (by decide)]
  simp [Place.enter, hname.isNeutral.meaning?_eq_none]

theorem IsCommonName.leave_eq (place : Place) :
    place.leave name = ⟨place.level, (TextPolicy.skipping .code).closed name place.zone⟩ := by
  simp [Place.leave, hname.isNeutral.meaning?_eq_none, TextPolicy.skipping]

end

theorem map_requote_of_isCommon {attributes : List Attribute}
    (hattributes : ∀ entry ∈ attributes, IsCommonAttribute entry) :
    attributes.map requote = attributes :=
  map_requote_of_forall fun entry hentry hmem => (hattributes entry hentry).2 _ hmem (by decide)

/-- Common tags are written as they stand. -/
theorem exists_markup_of_isCommon {event : Event} (h : event.IsCommon)
    (hmarkup : event.isMarkup = true) (level : Option SectionLevel) (zone : SkipZone) :
    ∃ piece : Piece, piece.write = event.source ∧
      markup ⟨level, zone⟩ event = ([piece], ⟨level, zoneAfter zone event⟩) := by
  cases event with
  | startTag name attributes =>
    obtain ⟨hname, hattributes, -⟩ := h
    refine ⟨.startTag name attributes, rfl, ?_⟩
    simp only [markup, hname.isNeutral.startPieces_eq, map_requote_of_isCommon hattributes,
      hname.enter_eq, zoneAfter]
  | endTag name =>
    have hname : IsCommonName name := h
    refine ⟨.endTag name, rfl, ?_⟩
    simp only [markup, hname.isNeutral.endPieces_eq, hname.leave_eq, zoneAfter]
  | _ => contradiction

theorem escapeText_of_forall_isCommonCharacter {s : Text} (hs : ∀ c ∈ s, IsCommonCharacter c) :
    escapeText s = s := by
  have hspecial : "<>&".toList ⊆ "&<>\x00\r".toList := by decide
  exact (Html.escapeText_eq_self_iff s).2 fun c hc hmem => hs c hc (hspecial hmem)

/-- A document of common markup is converted segment by segment. The induction keeps both readings at
    the same zone. -/
theorem split_eq_segments {events : List Event} (hevents : ∀ event ∈ events, event.IsCommon)
    (level : Option SectionLevel) (zone : SkipZone) :
    (split ⟨level, zone⟩ events).1 = (segments zone events).1 ∧
      (split ⟨level, zone⟩ events).2.flatMap Piece.write = (segments zone events).2.flatMap
        (Segment.write Typography.RuleSet.dialect.apply) := by
  induction events generalizing zone with
  | nil => exact ⟨rfl, rfl⟩
  | cons event events ih =>
    obtain ⟨hevent, hlater⟩ := List.forall_mem_cons.1 hevents
    cases hmarkup : event.isMarkup with
    | true =>
      obtain ⟨piece, hwrite, hpiece⟩ := exists_markup_of_isCommon hevent hmarkup level zone
      obtain ⟨hlead, hwritten⟩ := ih hlater (zoneAfter zone event)
      rw [segments_cons_of_isMarkup hmarkup, split, characterData?_of_isMarkup hmarkup, hpiece]
      refine ⟨rfl, ?_⟩
      simp [Segment.write, flatMap_write_textPieces, hlead, hwritten, hwrite]
    | false =>
      obtain ⟨c, rfl, hc⟩ := hevent.exists_character hmarkup
      obtain ⟨hlead, hwritten⟩ := ih hlater zone
      have hplain : escapeText [c] = [c] :=
        escapeText_of_forall_isCommonCharacter (by simpa using hc)
      have hdata : characterData? ⟨level, zone⟩ (.character c) = some [c] := by
        simp [characterData?, hplain]
      rw [split, hdata, segments]
      exact ⟨congrArg (c :: ·) hlead, hwritten⟩

/-- Common markup is accepted and comes out with the texts outside code typographed. -/
theorem Content.convert_eq_typographed {content : Content} (h : content.IsCommon)
    (hmark : content.source.head? ≠ some '\ufeff') :
    convert content.source =
      ⟨content.typographed Typography.RuleSet.dialect.apply, none⟩ := by
  have hread : read content.source = ⟨content.events, none⟩ := by
    have hwhole := readFrom_source h.wellFormed [] []
    simpa [Reading.precededBy, read] using hwhole
  obtain ⟨hlead, hwritten⟩ := split_eq_segments (isCommon_events h) none {}
  have hpieces : (pieces content.events).flatMap Piece.write =
      content.typographed Typography.RuleSet.dialect.apply := by
    rw [pieces, List.flatMap_append, flatMap_write_textPieces, hlead, hwritten]
    rfl
  simp only [convert, Text.dropByteOrderMark_of_head? hmark, hread, hpieces, Option.map_none]

end Dialect

end PostMarkup
