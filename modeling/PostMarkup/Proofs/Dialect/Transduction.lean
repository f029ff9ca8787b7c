import PostMarkup.Proofs.Dialect.Content
import PostMarkup.Proofs.Dialect.OutputNesting
import PostMarkup.Proofs.Policy.SkipZone

namespace PostMarkup.Dialect

open TextPolicy (closed_opened holder_opened isActive_opened of_mem_holder_opened)

/-- What content is written as inside its element. -/
structure Transduced where
  /-- The character data before the first tag or comment, in escaped form. -/
  run : Text
  /-- The output from that tag or comment on. -/
  output : Text
  /-- The level in force after the content. -/
  level : Option SectionLevel

namespace Transduced

def precededBy (data : Text) (t : Transduced) : Transduced :=
  { t with run := data ++ t.run }

/-- The whole output, the first run of character data included. Where text is sheltered it is not
    typographed. -/
def finish (sheltered : Bool) (t : Transduced) : Text :=
  (if sheltered then t.run else Typography.RuleSet.dialect.apply t.run) ++ t.output

end Transduced

/-- The level that an element sets for what stands inside it. -/
def sectionLevel? (source : Text) : Option SectionLevel :=
  match meaning? source with
  | some (.sectioning level) => some level
  | _ => none

namespace Content

/-- The output of content, given the level in force before it and whether a skip zone has been
    opened around it. -/
def transduce (sheltered : Bool) (level : Option SectionLevel) : Content → Transduced
  | nothing => ⟨[], [], level⟩
  | text s rest =>
    (rest.transduce sheltered level).precededBy (if sheltered then escapeText s else s)
  | reference name rest => (rest.transduce sheltered level).precededBy ('&' :: name ++ [';'])
  | literal s rest => (rest.transduce sheltered level).precededBy (escapeText s)
  | comment s rest =>
    let later := rest.transduce sheltered level
    ⟨[], commentSource s ++ later.finish sheltered, later.level⟩
  | element name attributes _ inside rest =>
    let within := sheltered || decide (name ∈ SkipSet.dialect)
    match outputName? level name with
    | none =>
      let inner := inside.transduce within (sectionLevel? name)
      let later := rest.transduce sheltered none
      ⟨[], inner.finish within ++ later.finish sheltered, later.level⟩
    | some output =>
      let inner := inside.transduce within level
      let later := rest.transduce sheltered inner.level
      let written := outputAttributes name output (attributes.map QuotedAttribute.toAttribute)
      ⟨[], '<' :: output ++ written.flatMap Attribute.write ++ ['>'] ++ inner.finish within ++
        ('<' :: '/' :: output ++ ['>']) ++ later.finish sheltered, later.level⟩

/-- The output of a whole document. -/
def output (content : Content) : Text := (content.transduce false none).finish false

/-- All elements with what stands inside them, at every depth. -/
def elements : Content → List (Text × Content)
  | nothing => []
  | text _ rest | reference _ rest | literal _ rest | comment _ rest => rest.elements
  | element name _ _ inside rest => (name, inside) :: (inside.elements ++ rest.elements)

/-- The elements that open a skip zone: those of the skip set that have none around them. -/
def zones : Content → List (Text × Content)
  | nothing => []
  | text _ rest | reference _ rest | literal _ rest | comment _ rest => rest.zones
  | element name _ _ inside rest =>
    (if name ∈ SkipSet.dialect then [(name, inside)] else inside.zones) ++ rest.zones

/-- The names of all elements, at every depth. -/
def names (content : Content) : List Text := content.elements.map Prod.fst

/-- No section stands inside a heading, at any depth. -/
def HeadingsHoldNoSection (content : Content) : Prop :=
  ∀ heading ∈ content.elements, meaning? heading.1 = some .heading →
    ∀ name ∈ heading.2.names, isSection name = false

instance : DecidablePred HeadingsHoldNoSection := fun content =>
  inferInstanceAs (Decidable (∀ heading ∈ content.elements, meaning? heading.1 = some .heading →
    ∀ name ∈ heading.2.names, isSection name = false))

/-- No element that opens a skip zone has another of its name inside it, at any depth. -/
def ZonesHoldNoNamesake (content : Content) : Prop :=
  ∀ zone ∈ content.zones, zone.1 ∉ zone.2.names

instance : DecidablePred ZonesHoldNoNamesake := fun content =>
  inferInstanceAs (Decidable (∀ zone ∈ content.zones, zone.1 ∉ zone.2.names))

end Content

theorem flatMap_write_textPieces (place : Place) (run : Text) :
    (textPieces place run).flatMap Piece.write =
      if place.zone.isActive then run else Typography.RuleSet.dialect.apply run := by
  cases run with
  | nil => simp [textPieces]
  | cons c run => simp [textPieces, Piece.write]

/-- The events are written as this text from the place on: character data first, and the output from
    the first markup on. -/
def Renders (place : Place) (events : List Event) (run output : Text) : Prop :=
  (split place events).1 = run ∧ (split place events).2.flatMap Piece.write = output

theorem renders_nil (place : Place) : Renders place [] [] [] := ⟨rfl, rfl⟩

/-- Character data joins the run that it stands before. -/
theorem Renders.data {place : Place} {event : Event} {events : List Event} {data run output : Text}
    (hdata : characterData? place event = some data) (h : Renders place events run output) :
    Renders place (event :: events) (data ++ run) output := by
  obtain ⟨rfl, rfl⟩ := h
  constructor <;> simp only [split, hdata]

theorem Renders.text {place : Place} {events : List Event} {run output : Text} (s : Text)
    (h : Renders place events run output) :
    Renders place (s.map .character ++ events)
      ((if place.zone.isActive then escapeText s else s) ++ run) output := by
  induction s with
  | nil => simpa [escapeText] using h
  | cons c s ih =>
    have hdata : characterData? place (.character c) =
        some (if place.zone.isActive then escapeText [c] else [c]) := rfl
    have hrun := ih.data hdata
    rw [List.map_cons, List.cons_append]
    cases hactive : place.zone.isActive with
    | false => simpa [hactive] using hrun
    | true =>
      have hescape : escapeText (c :: s) = escapeText [c] ++ escapeText s := escapeText_append [c] s
      simpa [hactive, hescape] using hrun

/-- Markup ends the run before it. The run after it is written in its final form, as the place after
    the markup tells. -/
theorem Renders.markup {place : Place} (event : Event) {events : List Event} {t : Transduced}
    {tail : Text} (hdata : characterData? place event = none)
    (h : Renders (markup place event).2 events t.run (t.output ++ tail)) :
    Renders place (event :: events) []
      ((Dialect.markup place event).1.flatMap Piece.write ++
        t.finish (Dialect.markup place event).2.zone.isActive ++ tail) := by
  obtain ⟨hrun, houtput⟩ := h
  constructor
  · simp only [split, hdata]
  · simp only [split, hdata, List.flatMap_append, flatMap_write_textPieces, hrun, houtput,
      Transduced.finish, List.append_assoc]

theorem level_enter (place : Place) (source : Text) :
    (place.enter source).level = if isSection source then sectionLevel? source else place.level := by
  unfold isSection sectionLevel? Place.enter
  cases meaning? source with
  | none => rfl
  | some meaning => cases meaning <;> rfl

theorem level_leave (place : Place) (source : Text) :
    (place.leave source).level = if isSection source then none else place.level :=
  levelAfter_closing source place.level

namespace Content

/-- Without a section in it, content leaves the level as it was. -/
theorem level_transduce {content : Content} (hsections : ∀ name ∈ content.names, isSection name = false)
    (sheltered : Bool) (level : Option SectionLevel) :
    (content.transduce sheltered level).level = level := by
  induction content generalizing sheltered level with
  | nothing => rfl
  | text s rest ih => exact ih hsections sheltered level
  | reference name rest ih => exact ih hsections sheltered level
  | literal s rest ih => exact ih hsections sheltered level
  | comment s rest ih => exact ih hsections sheltered level
  | element name attributes selfClosed inside rest ihinside ihrest =>
    have hinside : ∀ other ∈ inside.names, isSection other = false := fun other hother =>
      hsections other (by simp_all [names, elements])
    have hrest : ∀ other ∈ rest.names, isSection other = false := fun other hother =>
      hsections other (by simp_all [names, elements])
    have hname : outputName? level name ≠ none := by
      rw [Ne, outputName?_eq_none_iff, hsections name (by simp [names, elements])]
      exact Bool.false_ne_true
    obtain ⟨output, houtput⟩ := Option.ne_none_iff_exists'.1 hname
    simp only [transduce, houtput, ihinside hinside, ihrest hrest]

/-- An element is written from the place at its start tag, the place inside it and the place at its
    end tag. A heading needs the level of its start tag at its end tag. -/
theorem transduce_element {name : Text} {inside : Content}
    (hheading : meaning? name = some .heading → ∀ other ∈ inside.names, isSection other = false)
    (place : Place) (attributes : List QuotedAttribute) (selfClosed : Bool) (rest : Content) :
    let inner := place.enter name
    let within := inside.transduce inner.zone.isActive inner.level
    let last : Place := ⟨within.level, inner.zone⟩
    let later := rest.transduce place.zone.isActive (last.leave name).level
    (element name attributes selfClosed inside rest).transduce place.zone.isActive place.level =
      ⟨[], (startPieces place name (attributes.map QuotedAttribute.toAttribute)).flatMap Piece.write ++
        within.finish inner.zone.isActive ++ (endPieces last name).flatMap Piece.write ++
        later.finish place.zone.isActive, later.level⟩ := by
  intro inner within last later
  have hactive : inner.zone.isActive = (place.zone.isActive || decide (name ∈ SkipSet.dialect)) :=
    isActive_opened name place.zone
  have hname : outputName? last.level name = outputName? place.level name := by
    by_cases hsource : meaning? name = some .heading
    · have hlevel : last.level = place.level := by
        rw [show last.level = inner.level from level_transduce (hheading hsource) _ _, level_enter,
          isSection_of_heading hsource]
        rfl
      rw [hlevel]
    · exact outputName?_of_not_heading hsource _ _
  have hlater : (last.leave name).level = if isSection name then none else within.level :=
    level_leave last name
  have hinner : inner.level = if isSection name then sectionLevel? name else place.level :=
    level_enter place name
  cases houtput : outputName? place.level name with
  | none =>
    have hsection : isSection name = true := outputName?_eq_none_iff.1 houtput
    rw [hsection, if_pos rfl] at hlater hinner
    simp [transduce, houtput, startPieces, endPieces, hname, hlater, later, within, hinner, hactive]
  | some output =>
    have hsection : isSection name = false := by
      rw [Bool.eq_false_iff]
      intro hsection
      simp [outputName?_eq_none_iff.2 hsection] at houtput
    rw [hsection, if_neg Bool.false_ne_true] at hlater hinner
    simp [transduce, houtput, startPieces, endPieces, hname, hlater, later, within, hinner, hactive,
      Piece.write]

/-- Nothing in the content ends a skip zone early: neither the zone around the content nor one that
    begins in it. -/
structure KeepsZones (zone : SkipZone) (content : Content) : Prop where
  zones : zone.holder = none → content.ZonesHoldNoNamesake
  holder : ∀ holder ∈ zone.holder, holder ∉ content.names

section

variable {zone : SkipZone} {name : Text} {attributes : List QuotedAttribute} {selfClosed : Bool}
  {inside rest : Content} (h : KeepsZones zone (element name attributes selfClosed inside rest))

include h

theorem KeepsZones.ne_name : ∀ holder ∈ zone.holder, holder ≠ name := by
  rintro holder hholder rfl
  apply h.holder holder hholder
  simp [names, elements]

theorem KeepsZones.after_element : KeepsZones zone rest where
  zones hnone other hother := h.zones hnone other (by simp [Content.zones, hother])
  holder holder hholder hname := h.holder holder hholder (by simp_all [names, elements])

/-- Inside an element the zone has a holder if there was one before, or if the element became it. -/
theorem KeepsZones.inside_element : KeepsZones ((TextPolicy.skipping .dialect).opened name zone) inside where
  zones := by
    rw [holder_opened, Option.or_eq_none_iff]
    rintro ⟨hnone, hname⟩ other hother
    have hskip : name ∉ SkipSet.dialect := by simpa using hname
    apply h.zones hnone
    simp [Content.zones, hskip, hother]
  holder := by
    intro holder hholder hname
    obtain hholder | ⟨hnone, hskip, heq⟩ := of_mem_holder_opened hholder
    · apply h.holder holder hholder
      simp_all [names, elements]
    · exact h.zones hnone (name, inside) (by simp [Content.zones, hskip]) (heq ▸ hname)

end

theorem HeadingsHoldNoSection.element {name : Text} {attributes : List QuotedAttribute}
    {selfClosed : Bool} {inside rest : Content}
    (h : (element name attributes selfClosed inside rest).HeadingsHoldNoSection) :
    (meaning? name = some .heading → ∀ other ∈ inside.names, isSection other = false) ∧
      inside.HeadingsHoldNoSection ∧ rest.HeadingsHoldNoSection := by
  refine ⟨?_, ?_, ?_⟩
  · exact h (name, inside) (by simp [elements])
  · intro heading hmem
    exact h heading (by simp [elements, hmem])
  · intro heading hmem
    exact h heading (by simp [elements, hmem])

/-- The conversion at a place agrees with the recursion: inside a skip zone exactly if one has been
    opened around the content, at the same level, and back in the same zone at the end. -/
theorem renders_events {content : Content} (hcontent : content.WellFormed)
    (hheadings : content.HeadingsHoldNoSection) {place : Place}
    (hzones : KeepsZones place.zone content) {later : List Event} {tail : Text}
    (hlater : Renders ⟨(content.transduce place.zone.isActive place.level).level, place.zone⟩ later []
      tail) :
    Renders place (content.events ++ later)
      (content.transduce place.zone.isActive place.level).run
      ((content.transduce place.zone.isActive place.level).output ++ tail) := by
  induction content generalizing place later tail with
  | nothing => exact hlater
  | text s rest ih =>
    have hrest := ih hcontent.2 hheadings ⟨hzones.1, hzones.2⟩ hlater
    have hwhole := hrest.text s
    rw [events, List.append_assoc]
    exact hwhole
  | reference name rest ih =>
    have hrest := ih hcontent.2 hheadings ⟨hzones.1, hzones.2⟩ hlater
    exact hrest.data rfl
  | literal s rest ih =>
    have hrest := ih hcontent.2 hheadings ⟨hzones.1, hzones.2⟩ hlater
    exact hrest.data rfl
  | comment s rest ih =>
    have hrest := ih hcontent.2 hheadings ⟨hzones.1, hzones.2⟩ hlater
    have hwhole := Renders.markup (.directive (commentSource s)) rfl hrest
    simpa [markup, Piece.write, transduce, events] using hwhole
  | element name attributes selfClosed inside rest ihinside ihrest =>
    obtain ⟨-, -, -, hempty, hcontentInside, hcontentRest⟩ := hcontent
    obtain ⟨hheading, hheadingsInside, hheadingsRest⟩ := hheadings.element
    rw [transduce_element hheading] at hlater ⊢
    have hzone : ((⟨(inside.transduce (place.enter name).zone.isActive (place.enter name).level).level,
        (place.enter name).zone⟩ : Place).leave name).zone = place.zone :=
      closed_opened hzones.ne_name
    have hrest := ihrest hcontentRest hheadingsRest (hzone ▸ hzones.after_element)
      (by rw [hzone]; exact hlater)
    have hend := Renders.markup (.endTag name) rfl hrest
    cases selfClosed with
    | true =>
      obtain rfl := hempty rfl
      have hwhole := Renders.markup
        (.emptyTag name (attributes.map QuotedAttribute.toAttribute)) rfl hrest
      have hlevel : (transduce (place.enter name).zone.isActive (place.enter name).level nothing).level =
          (place.enter name).level := rfl
      have hfinish : (transduce (place.enter name).zone.isActive (place.enter name).level
          nothing).finish (place.enter name).zone.isActive = [] := by
        simp [transduce, Transduced.finish]
      rw [hlevel] at hzone hwhole ⊢
      simp only [markup, hzone] at hwhole
      simpa [events, hfinish] using hwhole
    | false =>
      have hinside := ihinside hcontentInside hheadingsInside hzones.inside_element hend
      have hwhole := Renders.markup
        (.startTag name (attributes.map QuotedAttribute.toAttribute)) rfl hinside
      simp only [markup, hzone] at hwhole
      simpa [events, List.append_assoc] using hwhole

/-- A document that is well formed as a tree converts to what the recursion on the tree gives, if no
    section stands inside a heading and no element that opens a skip zone holds another of its
    name. -/
theorem convert_source (content : Content) (hcontent : content.WellFormed)
    (hheadings : content.HeadingsHoldNoSection) (hzones : content.ZonesHoldNoNamesake)
    (hhead : content.source.head? ≠ some '\ufeff') :
    convert content.source = ⟨content.output, none⟩ := by
  have hread : read content.source = ⟨content.events, none⟩ := by
    have hwhole := readFrom_source hcontent [] []
    simpa [Reading.precededBy, read] using hwhole
  have hrenders : Renders {} content.events (content.transduce false none).run
      (content.transduce false none).output := by
    have hwhole : Renders {} (content.events ++ []) (content.transduce false none).run
        ((content.transduce false none).output ++ []) :=
      renders_events hcontent hheadings ⟨fun _ => hzones, by simp⟩ (renders_nil _)
    simpa using hwhole
  obtain ⟨hrun, houtput⟩ := hrenders
  have hpieces : (pieces content.events).flatMap Piece.write = content.output := by
    rw [pieces, List.flatMap_append, flatMap_write_textPieces, hrun, houtput]
    rfl
  simp only [convert, Text.dropByteOrderMark_of_head? hhead, hread, hpieces, Option.map_none]

theorem convert_source_heading_and_example :
    let heading := text "a -- ".toList (reference "lt".toList (literal "<b>".toList nothing))
    let code := text "a -- b".toList
      (element "pre".toList [] true nothing (comment "c".toList (text "d...".toList nothing)))
    let content := element "div2".toList [] false
      (element "head".toList [⟨⟨"title".toList, "say \"e\"".toList⟩, '\''⟩] false heading
        (element "example".toList [] false code (text "f...".toList nothing)))
      (element "head".toList [] true nothing nothing)
    convert content.source = ⟨content.output, none⟩ ∧
      content.output =
        ("<h3 title=\"say &quot;e&quot;\">a&nbsp;&mdash; &lt;&lt;b&gt;</h3>" ++
          "<pre class=\"code\">a -- b<pre></pre><!--c-->d...</pre>f&hellip;<h></h>").toList :=
  ⟨convert_source _ (by decide +kernel) (by decide +kernel) (by decide +kernel)
    (by decide +kernel), by decide +kernel⟩

end Content

end PostMarkup.Dialect
