import PostMarkup.Proofs.Dialect.DistinctKeys
import PostMarkup.Proofs.Dialect.EventText
import PostMarkup.Proofs.Dialect.LiteralText
import PostMarkup.Proofs.Dialect.NeutralName
import PostMarkup.Proofs.Dialect.OutputAttributes
import PostMarkup.Proofs.Dialect.Transduction

namespace PostMarkup.Dialect

/-- The events that an event is written as. -/
def Event.rewritten (place : Place) : Event → List Event
  | .character c => [if place.zone.isActive then escapedEvent c else .character c]
  | .literal content => content.map escapedEvent
  | .startTag name attributes => [.startTag name (attributes.map requote)]
  | .emptyTag name attributes => [.startTag name (attributes.map requote), .endTag name]
  | event => [event]

def rewritten (place : Place) : List Event → List Event
  | [] => []
  | event :: events =>
    event.rewritten place ++ rewritten (placeAfter place event.brackets) events

/-- An event whose tags have neutral names, and whose keys hold no quotes. -/
structure Event.IsNeutral (event : Event) : Prop where
  names : ∀ bracket ∈ event.brackets, IsNeutralName bracket.name
  keys : ∀ entry ∈ event.attributes, ∀ c ∈ entry.key, DocumentType.isQuote c = false

instance : DecidablePred Event.IsNeutral := fun event =>
  have : DecidablePred fun entry : Attribute => ∀ c ∈ entry.key, DocumentType.isQuote c = false :=
    fun entry => List.decidableBAll _ entry.key
  decidable_of_iff ((∀ bracket ∈ event.brackets, IsNeutralName bracket.name) ∧
    ∀ entry ∈ event.attributes, ∀ c ∈ entry.key, DocumentType.isQuote c = false)
    ⟨fun ⟨hnames, hkeys⟩ => ⟨hnames, hkeys⟩, fun ⟨hnames, hkeys⟩ => ⟨hnames, hkeys⟩⟩

/-- No key ends the tag that it is written in. -/
def Event.HoldsKeys (event : Event) : Prop := ∀ entry ∈ event.attributes, '>' ∉ entry.key

instance : DecidablePred Event.HoldsKeys := fun event =>
  inferInstanceAs (Decidable (∀ entry ∈ event.attributes, '>' ∉ entry.key))

/-- What an event is written as at a place. -/
def Event.write (place : Place) (event : Event) : Text :=
  (characterData? place event).getD ((markup place event).1.flatMap Piece.write)

/-- What events are written as from a place on, but for the typography of the character data before
    the first markup. -/
def written (place : Place) (events : List Event) : Text :=
  (split place events).1 ++ (split place events).2.flatMap Piece.write

/-- The run of character data that begins at a place, if it is outside the skip zones. -/
def exposedRun (place : Place) (events : List Event) : List Text :=
  if place.zone.isActive then [] else [(split place events).1]

def laterRuns (place : Place) : List Event → List Text
  | [] => []
  | event :: events =>
    let next := placeAfter place event.brackets
    (if event.isMarkup then exposedRun next events else []) ++ laterRuns next events

/-- The runs of character data outside the skip zones: one at the beginning, and one behind each
    piece of markup. -/
def exposedRuns (events : List Event) : List Text := exposedRun {} events ++ laterRuns {} events

/-- Typography leaves the runs as they are. -/
def AreSettled (runs : List Text) : Prop :=
  ∀ run ∈ runs, Typography.RuleSet.dialect.apply run = run

instance : DecidablePred AreSettled := fun runs =>
  inferInstanceAs (Decidable (∀ run ∈ runs, Typography.RuleSet.dialect.apply run = run))

section

variable (place : Place)

theorem map_requote_map_requote (attributes : List Attribute) :
    (attributes.map requote).map requote = attributes.map requote := by
  refine map_requote_of_forall fun entry hentry => ?_
  obtain ⟨source, -, rfl⟩ := List.mem_map.1 hentry
  exact quote_not_mem_requote source

theorem startPieces_map_requote (source : Text) (attributes : List Attribute) :
    startPieces place source (attributes.map requote) = startPieces place source attributes := by
  have hwritten (output : Text) : outputAttributes source output (attributes.map requote) =
      outputAttributes source output attributes := by
    cases attributes with
    | nil => rfl
    | cons first attributes =>
      exact congrArg (decorate output) (map_requote_map_requote (first :: attributes))
  simp only [startPieces, hwritten]

/-- What an event is written as is written like the event. -/
theorem split_event_rewritten_append (event : Event) (later : List Event) :
    split place (event.rewritten place ++ later) = split place (event :: later) := by
  cases event with
  | character c =>
    cases hactive : place.zone.isActive with
    | false => simp [Event.rewritten, hactive]
    | true =>
      have hdata : characterData? place (.character c) = some (escapeText [c]) := by
        simp [characterData?, hactive]
      rw [split_of_characterData? hdata, Event.rewritten, if_pos hactive, List.singleton_append,
        split_of_characterData? (characterData?_escapedEvent place c)]
  | literal content => exact (interchangeable_literal content later place).symm
  | startTag name attributes =>
    simp only [Event.rewritten, List.singleton_append, split, characterData?, markup,
      startPieces_map_requote]
  | emptyTag name attributes =>
    have hnone : textPieces (place.enter name) [] = [] := rfl
    simp [Event.rewritten, split, characterData?, markup, startPieces_map_requote, hnone]
  | _ => rfl

theorem split_rewritten_append (events later : List Event) :
    split place (rewritten place events ++ later) = split place (events ++ later) := by
  induction events generalizing place with
  | nil => rfl
  | cons event events ih =>
    rw [rewritten, List.append_assoc, split_event_rewritten_append]
    exact split_cons_congr event (ih _)

theorem written_rewritten_append (events later : List Event) :
    written place (rewritten place events ++ later) = written place (events ++ later) := by
  simp only [written, split_rewritten_append]

theorem exposedRun_rewritten_append (events later : List Event) :
    exposedRun place (rewritten place events ++ later) = exposedRun place (events ++ later) := by
  simp only [exposedRun, split_rewritten_append]

/-- The character data before the first markup does not depend on what follows some markup. -/
theorem fst_split_append {event : Event} (hevent : event.isMarkup = true)
    (events later : List Event) :
    (split place (events ++ event :: later)).1 = (split place events).1 := by
  induction events with
  | nil => rw [List.nil_append, split_cons_of_isMarkup hevent]; rfl
  | cons first events ih =>
    cases hdata : characterData? place first with
    | some data =>
      rw [List.cons_append, split_of_characterData? hdata, split_of_characterData? hdata, ih]
    | none => simp only [List.cons_append, split, hdata]

theorem exposedRun_append {event : Event} (hevent : event.isMarkup = true)
    (events later : List Event) :
    exposedRun place (events ++ event :: later) = exposedRun place events := by
  rw [exposedRun, fst_split_append place hevent, exposedRun]

theorem laterRuns_subset_append {event : Event} (hevent : event.isMarkup = true)
    (events later : List Event) :
    laterRuns place events ⊆ laterRuns place (events ++ event :: later) := by
  induction events generalizing place with
  | nil => exact List.nil_subset _
  | cons first events ih =>
    simp only [laterRuns, List.cons_append, exposedRun_append _ hevent]
    exact List.append_subset.2 ⟨List.subset_append_left _ _,
      List.subset_append_of_subset_right _ (ih _)⟩

variable {place}

theorem flatMap_write_textPieces_of_settled {events : List Event}
    (hsettled : AreSettled (exposedRun place events)) :
    (textPieces place (split place events).1).flatMap Piece.write = (split place events).1 := by
  rw [flatMap_write_textPieces]
  split
  · rfl
  · next hzone => exact hsettled _ (by simp [exposedRun, hzone])

theorem written_cons {event : Event} {events : List Event}
    (hsettled : event.isMarkup →
      AreSettled (exposedRun (placeAfter place event.brackets) events)) :
    written place (event :: events) =
      event.write place ++ written (placeAfter place event.brackets) events := by
  cases hmarkup : event.isMarkup with
  | true =>
    rw [written, split_cons_of_isMarkup hmarkup, Event.write, characterData?_of_isMarkup hmarkup]
    simp [piecesAt, written, flatMap_write_textPieces_of_settled (hsettled hmarkup)]
  | false =>
    obtain ⟨data, hdata⟩ : ∃ data, characterData? place event = some data := by
      cases event <;> first | exact ⟨_, rfl⟩ | contradiction
    rw [written, split_of_characterData? hdata, Event.write, hdata,
      placeAfter_of_characterData? hdata]
    exact List.append_assoc ..

/-- The run behind an event, and the runs behind the events after it. -/
theorem AreSettled.of_laterRuns_cons {event : Event} {events : List Event}
    (h : AreSettled (laterRuns place (event :: events))) :
    (event.isMarkup → AreSettled (exposedRun (placeAfter place event.brackets) events)) ∧
      AreSettled (laterRuns (placeAfter place event.brackets) events) := by
  obtain ⟨hrun, hlater⟩ := List.forall_mem_append.1 h
  refine ⟨fun hmarkup => ?_, hlater⟩
  rwa [if_pos hmarkup] at hrun

theorem written_append {events : List Event} (hsettled : AreSettled (laterRuns place events))
    {event : Event} (hevent : event.isMarkup = true) (later : List Event) :
    written place (events ++ event :: later) = written place events ++
      written (placeAfter place (events.flatMap Event.brackets)) (event :: later) := by
  induction events generalizing place with
  | nil => rfl
  | cons first events ih =>
    obtain ⟨hrun, hlater⟩ := hsettled.of_laterRuns_cons
    rw [List.cons_append, written_cons (by rwa [exposedRun_append _ hevent]), ih hlater,
      written_cons hrun, List.append_assoc, List.flatMap_cons, placeAfter_append]

end

/-- The attributes of a start tag with the quotes that they are written in. -/
def requoted (attributes : List Attribute) : List QuotedAttribute :=
  attributes.map fun entry => ⟨requote entry, '"'⟩

section

variable {name : Text} {attributes : List Attribute}

theorem map_toAttribute_requoted (attributes : List Attribute) :
    (requoted attributes).map QuotedAttribute.toAttribute = attributes.map requote := by
  simp [requoted]

theorem write_startTag_requoted (name : Text) (attributes : List Attribute) :
    (Piece.startTag name (attributes.map requote)).write =
      '<' :: tagText name (requoted attributes) ++ ['>'] := by
  have hquotes : ∀ entry ∈ requoted attributes, entry.quote = '"' := by simp [requoted]
  rw [tagText, flatMap_source_attributes hquotes, map_toAttribute_requoted]
  rfl

theorem nodup_key_requoted (hkeys : (attributes.map Attribute.key).Nodup) :
    ((requoted attributes).map fun entry => entry.key).Nodup := by
  rw [requoted, List.map_map]
  exact hkeys

theorem readable_requoted (hattributes : ∀ entry ∈ attributes, IsWritableKey entry.key) :
    ∀ entry ∈ requoted attributes, entry.Readable := by
  intro quoted hquoted
  obtain ⟨entry, hentry, rfl⟩ := List.mem_map.1 hquoted
  exact ⟨hattributes entry hentry, rfl, quote_not_mem_requote entry⟩

/-- The start tag of an element that means nothing to the dialect is read back as it is written. -/
theorem spells_startTag_requoted (attributes : List Attribute) (hname : IsPlainName name)
    (hattributes : ∀ entry ∈ attributes, IsWritableKey entry.key)
    (hkeys : (attributes.map Attribute.key).Nodup) :
    Spells (Piece.startTag name (attributes.map requote)).write
      (.startTag name (attributes.map requote)) := by
  have hspells := spells_tagText hname (readable_requoted hattributes) (nodup_key_requoted hkeys)
  rwa [← write_startTag_requoted, map_toAttribute_requoted] at hspells

end

/-- An event is read back as the events that it is written as. -/
theorem readFrom_write {opens inner : List Text} {event : Event} (hread : event.IsRead)
    (hneutral : event.IsNeutral) (hkeys : event.HoldsKeys)
    (hopens : openAfter opens event = .ok inner) (place : Place) (s : Text) :
    readFrom opens (event.write place ++ s) =
      (readFrom inner s).precededBy (event.rewritten place) := by
  have hwritable : ∀ entry ∈ event.attributes, IsWritableKey entry.key := fun entry hentry =>
    (hread.isFoundKey entry hentry).isWritable (hneutral.keys entry hentry) (hkeys entry hentry)
  cases event with
  | character c =>
    obtain rfl := Except.ok.inj hopens
    cases hactive : place.zone.isActive with
    | false =>
      have hwrite : (Event.character c).write place = [c] := by
        simp [Event.write, characterData?, hactive]
      rw [hwrite, readFrom_of_spells (spells_character hread.1 hread.2) hopens]
      simp [Event.rewritten, hactive]
    | true =>
      have hwrite : (Event.character c).write place = escapeText [c] := by
        simp [Event.write, characterData?, hactive]
      rw [hwrite, readFrom_escapeText]
      simp [Event.rewritten, hactive]
  | reference name => exact readFrom_of_spells (spells_reference hread) hopens s
  | literal content =>
    obtain rfl := Except.ok.inj hopens
    exact readFrom_escapeText opens content s
  | startTag name attributes =>
    have hname : IsNeutralName name := hneutral.names (.opening name) (by simp [Event.brackets])
    have hspells := spells_startTag_requoted attributes hname.1 hwritable hread.nodup_key
    have hwrite : (Event.startTag name attributes).write place =
        (Piece.startTag name (attributes.map requote)).write := by
      simp [Event.write, characterData?, markup, hname.startPieces_eq]
    obtain rfl := Except.ok.inj hopens
    rw [hwrite, readFrom_of_spells hspells rfl]
    rfl
  | emptyTag name attributes =>
    have hname : IsNeutralName name := hneutral.names (.opening name) (by simp [Event.brackets])
    have hspells := spells_startTag_requoted attributes hname.1 hwritable hread.nodup_key
    have hwrite : (Event.emptyTag name attributes).write place =
        (Piece.startTag name (attributes.map requote)).write ++ (Piece.endTag name).write := by
      simp [Event.write, characterData?, markup, hname.startPieces_eq, hname.endPieces_eq]
    have hclosed : openAfter (name :: opens) (.endTag name) = .ok opens := by
      simp only [openAfter, if_true]
    have hend : Spells (Piece.endTag name).write (.endTag name) :=
      spells_endTag_of_isPlainName hname.1
    obtain rfl := Except.ok.inj hopens
    rw [hwrite, List.append_assoc, readFrom_of_spells hspells rfl,
      readFrom_of_spells hend hclosed, Reading.precededBy_precededBy]
    rfl
  | endTag name =>
    have hname : IsNeutralName name := hneutral.names (.closing name) (by simp [Event.brackets])
    have hwrite : (Event.endTag name).write place = (Piece.endTag name).write := by
      simp [Event.write, characterData?, markup, hname.endPieces_eq]
    rw [hwrite]
    exact readFrom_of_spells (spells_endTag_of_isPlainName hname.1) hopens s
  | directive text =>
    have hwrite : (Event.directive text).write place = text := by
      simp [Event.write, characterData?, markup, Piece.write]
    rw [hwrite]
    exact readFrom_of_spells hread hopens s

/-- By induction on the events: the output is read back event by event, with the same elements open
    as in the source. -/
theorem readFrom_written_append {opens inner : List Text} {place : Place} {events : List Event}
    (hopens : events.foldlM openAfter opens = .ok inner)
    (hevents : ∀ event ∈ events, event.IsRead ∧ event.IsNeutral ∧ event.HoldsKeys)
    (hsettled : AreSettled (laterRuns place events)) (s : Text) :
    readFrom opens (written place events ++ s) =
      (readFrom inner s).precededBy (rewritten place events) := by
  induction events generalizing opens place with
  | nil =>
    obtain rfl := Except.ok.inj hopens
    rfl
  | cons event events ih =>
    obtain ⟨⟨hread, hneutral, hkeys⟩, hlater⟩ := List.forall_mem_cons.1 hevents
    obtain ⟨hrun, hrest⟩ := hsettled.of_laterRuns_cons
    rw [List.foldlM_cons] at hopens
    obtain ⟨middle, hevent, hopens⟩ := exists_of_bind_openAfter hopens
    rw [written_cons hrun, List.append_assoc, readFrom_write hread hneutral hkeys hevent,
      ih hopens hlater hrest, Reading.precededBy_precededBy, rewritten]

end PostMarkup.Dialect
