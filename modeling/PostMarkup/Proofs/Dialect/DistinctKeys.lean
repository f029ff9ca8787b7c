import PostMarkup.Dialect.Conversion
import PostMarkup.Proofs.Attribute
import PostMarkup.Proofs.Dialect.Brackets
import PostMarkup.Proofs.Dialect.ReadEvents

namespace PostMarkup.Dialect

/-- The attributes of a start tag. Other events have none. -/
def Event.attributes : Event → List Attribute
  | .startTag _ attributes | .emptyTag _ attributes => attributes
  | _ => []

theorem Event.IsRead.nodup_key {event : Event} (h : event.IsRead) :
    (event.attributes.map Attribute.key).Nodup := by
  cases event with
  | startTag name attributes => exact h.1
  | emptyTag name attributes => exact h.1
  | _ => exact List.nodup_nil

theorem Event.IsRead.isFoundKey {event : Event} (h : event.IsRead) :
    ∀ entry ∈ event.attributes, IsFoundKey entry.key := by
  cases event with
  | startTag name attributes => exact h.2
  | emptyTag name attributes => exact h.2
  | _ => exact fun entry hentry => absurd hentry List.not_mem_nil

theorem nodup_key_of_mem_readFrom (opens : List Text) (s : Text) :
    ∀ event ∈ (readFrom opens s).events, (event.attributes.map Attribute.key).Nodup :=
  fun event hevent => (isRead_of_mem_readFrom opens s event hevent).nodup_key

namespace Link

theorem map_key_filter (p : Text → Bool) (attributes : List Attribute) :
    (attributes.filter fun entry => p entry.key).map Attribute.key =
      (attributes.map Attribute.key).filter p :=
  (List.filter_map ..).symm

/-- Behind the marker a link keeps its keys distinct: the ones that name its target are taken out, and
    so is a written address before a computed one is put in. A marker that is there stays there. -/
theorem exists_map_key_resolve {attributes : List Attribute}
    (hkeys : (attributes.map Attribute.key).Nodup) :
    ∃ rest, (resolve attributes).map Attribute.key = marker.key :: rest ∧ rest.Nodup ∧
      (marker.key ∈ rest ↔ marker.key ∈ attributes.map Attribute.key) := by
  let named : Text → Bool := fun key => key ≠ "id".toList && key ≠ "name".toList
  let written : Text → Bool := fun key => key ≠ "href".toList
  have hnamed : named marker.key = true := by decide
  have hwritten : written marker.key = true := by decide
  have hkept : ((attributes.map Attribute.key).filter named).Nodup := hkeys.filter named
  unfold resolve
  split
  · refine ⟨((attributes.map Attribute.key).filter named).filter written ++ ["href".toList],
      ?_, ?_, ?_⟩
    · simp only [List.map_cons, List.cons_append, List.map_append]
      rw [map_key_filter written, map_key_filter named]
      rfl
    · refine List.nodup_append.2 ⟨hkept.filter written, by simp, fun key hkey other hother heq => ?_⟩
      obtain rfl := List.mem_singleton.1 hother
      simp [written, heq] at hkey
    · have hother : marker.key ∉ ["href".toList] := by decide
      simp only [List.mem_append, List.mem_filter, hnamed, hwritten, hother, and_true, or_false]
  · refine ⟨(attributes.map Attribute.key).filter named, ?_, hkept, ?_⟩
    · rw [List.map_cons, map_key_filter named]
    · simp only [List.mem_filter, hnamed, and_true]

end Link

/-- The name that links are written under. -/
def linkName : Text := ['a']

/-- The names that links have in the source. -/
def linkSources : List Text := [linkName, "link".toList]

theorem map_key_requote (attributes : List Attribute) :
    (attributes.map requote).map Attribute.key = attributes.map Attribute.key := by
  rw [List.map_map]
  rfl

theorem nodup_key_defaultAttributes? (source : Text) :
    (((defaultAttributes? source).getD []).map Attribute.key).Nodup ∧
      Link.marker.key ∉ ((defaultAttributes? source).getD []).map Attribute.key := by
  unfold defaultAttributes?
  split
  · decide
  · decide
  · simp

theorem nodup_key_decorate_of_ne {output : Text} (houtput : output ≠ linkName)
    {attributes : List Attribute} (hkeys : (attributes.map Attribute.key).Nodup) :
    ((decorate output attributes).map Attribute.key).Nodup := by
  unfold decorate
  split
  · exact Attribute.nodup_key_upsert hkeys
  · exact Attribute.nodup_key_upsert hkeys
  · next hlink =>
    exact absurd (String.ofList_injective (hlink.trans (by decide : "a" = String.ofList linkName)))
      houtput
  · exact hkeys

theorem decorate_linkName (attributes : List Attribute) :
    decorate linkName attributes = Link.resolve attributes := rfl

theorem outputAttributes_eq_decorate {attributes : List Attribute}
    (hkeys : (attributes.map Attribute.key).Nodup) (source output : Text) :
    ∃ own, outputAttributes source output attributes = decorate output own ∧
      (own.map Attribute.key).Nodup ∧
      (Link.marker.key ∈ own.map Attribute.key ↔ Link.marker.key ∈ attributes.map Attribute.key) := by
  cases attributes with
  | nil =>
    obtain ⟨hdistinct, hmarker⟩ := nodup_key_defaultAttributes? source
    exact ⟨_, rfl, hdistinct, by simpa using hmarker⟩
  | cons first attributes =>
    refine ⟨(first :: attributes).map requote, rfl, ?_, ?_⟩
    · rwa [map_key_requote]
    · rw [map_key_requote]

/-- A start tag repeats a key only where it is written for a link that brings the marker itself. -/
theorem nodup_key_outputAttributes_iff {source output : Text} {attributes : List Attribute}
    (hkeys : (attributes.map Attribute.key).Nodup) :
    ((outputAttributes source output attributes).map Attribute.key).Nodup ↔
      ¬ (output = linkName ∧ Link.marker.key ∈ attributes.map Attribute.key) := by
  obtain ⟨own, hwritten, hdistinct, hmarker⟩ :=
    outputAttributes_eq_decorate hkeys source output
  rw [hwritten]
  by_cases houtput : output = linkName
  · obtain ⟨rest, hrest, hother, hkept⟩ := Link.exists_map_key_resolve hdistinct
    rw [houtput, decorate_linkName, hrest, List.nodup_cons, hkept, hmarker]
    simp [hother]
  · simp [houtput, nodup_key_decorate_of_ne houtput hdistinct]

/-- One marker less, and no key is repeated. -/
theorem nodup_erase_marker_outputAttributes {source output : Text} {attributes : List Attribute}
    (hkeys : (attributes.map Attribute.key).Nodup) :
    (((outputAttributes source output attributes).map Attribute.key).erase Link.marker.key).Nodup := by
  obtain ⟨own, hwritten, hdistinct, -⟩ :=
    outputAttributes_eq_decorate hkeys source output
  rw [hwritten]
  by_cases houtput : output = linkName
  · obtain ⟨rest, hrest, hother, -⟩ := Link.exists_map_key_resolve hdistinct
    rwa [houtput, decorate_linkName, hrest, List.erase_cons_head]
  · exact (nodup_key_decorate_of_ne houtput hdistinct).erase _

/-- The events with the places at which they are read. -/
def placedEvents (place : Place) : List Event → List (Place × Event)
  | [] => []
  | event :: events => (place, event) :: placedEvents (markup place event).2 events

theorem map_snd_placedEvents (place : Place) (events : List Event) :
    (placedEvents place events).map Prod.snd = events := by
  induction events generalizing place with
  | nil => rfl
  | cons event events ih => rw [placedEvents, List.map_cons, ih]

section

variable {place : Place} {name : Text} {attributes : List Attribute}

theorem startTag_mem_startPieces_iff {source : Text} {given : List Attribute} :
    .startTag name attributes ∈ startPieces place source given ↔
      outputName? place.level source = some name ∧
        attributes = outputAttributes source name given := by
  unfold startPieces
  split
  · next output houtput =>
    simp only [List.mem_singleton, Piece.startTag.injEq, houtput, Option.some.injEq]
    constructor <;> rintro ⟨rfl, rfl⟩ <;> exact ⟨rfl, rfl⟩
  · next houtput => simp [houtput]

theorem startTag_not_mem_endPieces (source : Text) :
    .startTag name attributes ∉ endPieces place source := by
  unfold endPieces
  split <;> simp

theorem startTag_not_mem_textPieces (data : Text) :
    .startTag name attributes ∉ textPieces place data := by
  unfold textPieces
  split <;> simp

theorem startTag_mem_markup_iff {event : Event} :
    .startTag name attributes ∈ (markup place event).1 ↔
      ∃ source, .opening source ∈ event.brackets ∧ outputName? place.level source = some name ∧
        attributes = outputAttributes source name event.attributes := by
  cases event with
  | startTag source given =>
    simp [markup, startTag_mem_startPieces_iff, Event.brackets, Event.attributes]
  | emptyTag source given =>
    simp [markup, startTag_mem_startPieces_iff, startTag_not_mem_endPieces, Event.brackets,
      Event.attributes]
  | endTag source => simp [markup, startTag_not_mem_endPieces, Event.brackets]
  | _ => simp [markup, Event.brackets]

theorem startTag_mem_split_iff {events : List Event} :
    .startTag name attributes ∈ (split place events).2 ↔
      ∃ entry ∈ placedEvents place events, .startTag name attributes ∈ (markup entry.1 entry.2).1 := by
  induction events generalizing place with
  | nil => simp [split, placedEvents]
  | cons event events ih =>
    rw [placedEvents, split]
    cases hdata : characterData? place event with
    | some data =>
      have hmarkup : markup place event = ([], place) := by
        cases event <;> first | rfl | contradiction
      simp [hmarkup, ih]
    | none => simp [startTag_not_mem_textPieces, ih]

end

theorem startTag_mem_pieces_iff {name : Text} {attributes : List Attribute} {events : List Event} :
    .startTag name attributes ∈ pieces events ↔
      ∃ entry ∈ placedEvents {} events, .startTag name attributes ∈ (markup entry.1 entry.2).1 := by
  simp [pieces, startTag_not_mem_textPieces, startTag_mem_split_iff]

/-- Links are links in sections and outside. -/
theorem outputName?_eq_linkName_iff {level : Option SectionLevel} {source : Text} :
    outputName? level source = some linkName ↔ source ∈ linkSources := by
  simp only [linkSources, List.mem_cons, List.not_mem_nil, or_false]
  constructor
  · intro houtput
    unfold outputName? at houtput
    split at houtput
    · next hmeaning =>
      obtain rfl := Option.some.inj houtput
      unfold meaning? at hmeaning
      split at hmeaning
      case h_3 hlink =>
        exact .inr (String.toList_ofList.symm.trans (congrArg String.toList hlink))
      all_goals exact absurd hmeaning (by decide)
    · contradiction
    · simp [headingName, linkName] at houtput
    · exact .inl (Option.some.inj houtput)
  · rintro (rfl | rfl) <;> rfl

/-- A link that is marked as one in the source. -/
def Event.IsMarkedLink (event : Event) : Prop :=
  (∃ source ∈ linkSources, .opening source ∈ event.brackets) ∧
    Link.marker.key ∈ event.attributes.map Attribute.key

instance : DecidablePred Event.IsMarkedLink := fun _ => inferInstanceAs (Decidable (_ ∧ _))

/-- Of every document, well formed or not, start tags are read with distinct keys. None is written that
    repeats a key other than the marker's, or this one more than once. No start tag repeats any key if
    and only if no link of the document has an attribute with the marker's key. -/
theorem startTag_keys_distinct (input : Text) :
    let events := (read input.dropByteOrderMark).events
    (convert input).html = (pieces events).flatMap Piece.write ∧
      (∀ event ∈ events, (event.attributes.map Attribute.key).Nodup) ∧
      (∀ name attributes, .startTag name attributes ∈ pieces events →
        ((attributes.map Attribute.key).erase Link.marker.key).Nodup) ∧
      ((∀ name attributes, .startTag name attributes ∈ pieces events →
          (attributes.map Attribute.key).Nodup) ↔
        ∀ event ∈ events, ¬ event.IsMarkedLink) ∧
      ∀ source output attributes, (attributes.map Attribute.key).Nodup →
        (((outputAttributes source output attributes).map Attribute.key).Nodup ↔
          ¬ (output = linkName ∧ Link.marker.key ∈ attributes.map Attribute.key)) := by
  intro events
  have hdistinct : ∀ event ∈ events, (event.attributes.map Attribute.key).Nodup :=
    nodup_key_of_mem_readFrom [] _
  have hread {entry : Place × Event} (hentry : entry ∈ placedEvents {} events) :
      entry.2 ∈ events := by
    rw [← map_snd_placedEvents {} events]
    exact List.mem_map_of_mem hentry
  refine ⟨rfl, hdistinct, fun name attributes hpiece => ?_, ⟨fun hall event hevent => ?_, ?_⟩, ?_⟩
  · obtain ⟨entry, hentry, hpiece⟩ := startTag_mem_pieces_iff.1 hpiece
    obtain ⟨source, -, -, rfl⟩ := startTag_mem_markup_iff.1 hpiece
    exact nodup_erase_marker_outputAttributes (hdistinct _ (hread hentry))
  · rintro ⟨⟨source, hsource, hopening⟩, hmarker⟩
    rw [← map_snd_placedEvents {} events] at hevent
    obtain ⟨entry, hentry, rfl⟩ := List.mem_map.1 hevent
    have hpiece : .startTag linkName (outputAttributes source linkName entry.2.attributes) ∈
        (markup entry.1 entry.2).1 :=
      startTag_mem_markup_iff.2 ⟨source, hopening, outputName?_eq_linkName_iff.2 hsource, rfl⟩
    have hnodup := hall _ _ (startTag_mem_pieces_iff.2 ⟨entry, hentry, hpiece⟩)
    exact (nodup_key_outputAttributes_iff (hdistinct _ (hread hentry))).1 hnodup ⟨rfl, hmarker⟩
  · intro hunmarked name attributes hpiece
    obtain ⟨entry, hentry, hpiece⟩ := startTag_mem_pieces_iff.1 hpiece
    obtain ⟨source, hopening, houtput, rfl⟩ := startTag_mem_markup_iff.1 hpiece
    refine (nodup_key_outputAttributes_iff (hdistinct _ (hread hentry))).2 ?_
    rintro ⟨rfl, hmarker⟩
    exact hunmarked _ (hread hentry)
      ⟨⟨source, outputName?_eq_linkName_iff.1 houtput, hopening⟩, hmarker⟩
  · exact fun source output attributes hkeys => nodup_key_outputAttributes_iff hkeys

theorem startTag_keys_distinct_link_to_section :
    let input : Text :=
      "<link id='2' id='3' href='#'><center class='x'/><acronym class='y'>w</acronym>".toList
    let events := (read input.dropByteOrderMark).events
    (∀ event ∈ events, ¬ event.IsMarkedLink) ∧
      ∀ name attributes, .startTag name attributes ∈ pieces events →
        (attributes.map Attribute.key).Nodup := by
  intro input events
  have hunmarked : ∀ event ∈ events, ¬ event.IsMarkedLink := by decide +kernel
  exact ⟨hunmarked, (startTag_keys_distinct input).2.2.2.1.2 hunmarked⟩

/-- A link with the marker's key gets the marker all the same, and its own one stays. -/
theorem marked_link_repeats_itemprop :
    let input : Text := "<a itemprop=\"x\">b</a>".toList
    let written : List Attribute := [Link.marker, ⟨"itemprop".toList, ['x']⟩]
    (convert input).html = "<a itemprop=\"url\" itemprop=\"x\">b</a>".toList ∧
      .startTag ['a'] written ∈ pieces (read input.dropByteOrderMark).events ∧
      ¬ (written.map Attribute.key).Nodup := by
  decide +kernel

end PostMarkup.Dialect
