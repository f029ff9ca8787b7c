import PostMarkup.Proofs.Dialect.OutputNesting
import PostMarkup.Proofs.Dialect.PartialOutput

namespace PostMarkup

/-- A failure as it is reported with that many bytes before the text. -/
def Failure.after (bytes : Nat) : Failure → Failure
  | .malformed position fault => .malformed (bytes + position) fault
  | failure => failure

namespace Dialect

/-- Markup, which ends the text before it. -/
def Event.isMarkup : Event → Bool
  | .character _ | .reference _ | .literal _ => false
  | _ => true

theorem characterData?_of_isMarkup {event : Event} (hevent : event.isMarkup = true) (place : Place) :
    characterData? place event = none := by
  cases event <;> first | rfl | contradiction

def Bracket.placeAfter (place : Place) : Bracket → Place
  | .opening source => place.enter source
  | .closing source => place.leave source

/-- The place after some brackets. -/
def placeAfter (place : Place) (brackets : List Bracket) : Place :=
  brackets.foldl Bracket.placeAfter place

theorem placeAfter_append (place : Place) (brackets more : List Bracket) :
    placeAfter place (brackets ++ more) = placeAfter (placeAfter place brackets) more :=
  List.foldl_append

/-- Of markup only the brackets change the place. -/
theorem snd_markup (place : Place) (event : Event) :
    (markup place event).2 = placeAfter place event.brackets := by
  cases event <;> rfl

theorem level_placeAfter (place : Place) (brackets : List Bracket) :
    (placeAfter place brackets).level = levelAfter place.level brackets := by
  induction brackets generalizing place with
  | nil => rfl
  | cons bracket brackets ih =>
    have hbracket : (bracket.placeAfter place).level = bracket.levelAfter place.level := by
      cases bracket <;> rfl
    rw [placeAfter, List.foldl_cons, ← placeAfter, ih, hbracket]
    rfl

/-- An element inside which the zone stays or ends leaves the zone as it was, or ended. -/
theorem closed_opened_or {source : Text} {zone inner : SkipZone}
    (hinner : inner = (TextPolicy.skipping .dialect).opened source zone ∨ inner = {}) :
    (TextPolicy.skipping .dialect).closed source inner = zone ∨
      (TextPolicy.skipping .dialect).closed source inner = {} := by
  obtain rfl | rfl := hinner
  · obtain ⟨_ | holder⟩ := zone
    · by_cases hsource : source ∈ SkipSet.dialect <;>
        simp [TextPolicy.skipping, SkipZone.enter, SkipZone.exit, hsource]
    · by_cases hsource : source ∈ SkipSet.dialect <;> by_cases hholder : holder = source <;>
        simp [TextPolicy.skipping, SkipZone.enter, SkipZone.exit, hsource, hholder]
  · exact .inr rfl

/-- A nested stretch leaves the skip zone as it was, or ended where an element inside it had the name
    of the holder. A zone that begins in the stretch ends there too. -/
theorem zone_placeAfter_of_nested {brackets : List Bracket} (h : Nested brackets) (place : Place) :
    (placeAfter place brackets).zone = place.zone ∨ (placeAfter place brackets).zone = {} := by
  induction h generalizing place with
  | nil => exact .inl rfl
  | @pair source inside after _ _ ihinside ihafter =>
    have hpair : ((placeAfter (place.enter source) inside).leave source).zone = place.zone ∨
        ((placeAfter (place.enter source) inside).leave source).zone = {} :=
      closed_opened_or (ihinside (place.enter source))
    have hwhole : placeAfter place (.opening source :: inside ++ .closing source :: after) =
        placeAfter ((placeAfter (place.enter source) inside).leave source) after := by
      simp [placeAfter, Bracket.placeAfter]
    rw [hwhole]
    obtain hafter | hafter := ihafter ((placeAfter (place.enter source) inside).leave source)
    · rwa [hafter]
    · exact .inr hafter

/-- After a balanced document everything is as it was at the beginning. -/
theorem placeAfter_of_balanced {brackets : List Bracket} (h : Balanced brackets) :
    placeAfter {} brackets = {} := by
  have hnested := balanced_iff_nested.1 h
  have hlevel : (placeAfter {} brackets).level = none := by
    rw [level_placeAfter, levelAfter_of_nested hnested]
    exact ite_self none
  have hzone : (placeAfter {} brackets).zone = {} :=
    (zone_placeAfter_of_nested hnested {}).elim id id
  calc placeAfter {} brackets
    _ = ⟨(placeAfter {} brackets).level, (placeAfter {} brackets).zone⟩ := rfl
    _ = {} := by rw [hlevel, hzone]

/-- The pieces of some events at a place, the text before the first markup included. -/
def piecesAt (place : Place) (events : List Event) : List Piece :=
  textPieces place (split place events).1 ++ (split place events).2

theorem split_cons_of_isMarkup {event : Event} (hevent : event.isMarkup = true) (place : Place)
    (events : List Event) :
    split place (event :: events) =
      ([], (markup place event).1 ++ piecesAt (placeAfter place event.brackets) events) := by
  rw [split, characterData?_of_isMarkup hevent, ← snd_markup]
  simp [piecesAt]

/-- Markup separates what stands before it from what follows it. -/
theorem split_append_of_isMarkup {event : Event} (hevent : event.isMarkup = true) (place : Place)
    (events later : List Event) :
    split place (events ++ event :: later) =
      ((split place (events ++ [event])).1, (split place (events ++ [event])).2 ++
        piecesAt (placeAfter place ((events ++ [event]).flatMap Event.brackets)) later) := by
  induction events generalizing place with
  | nil =>
    rw [List.nil_append, split_cons_of_isMarkup hevent, List.nil_append,
      split_cons_of_isMarkup hevent]
    simp [piecesAt, split, textPieces]
  | cons first events ih =>
    cases hfirst : first.isMarkup with
    | true =>
      rw [List.cons_append, split_cons_of_isMarkup hfirst, List.cons_append,
        split_cons_of_isMarkup hfirst]
      simp only [piecesAt, ih, List.append_assoc, List.flatMap_cons, placeAfter_append]
    | false =>
      cases first with
      | character | reference | literal =>
        simp [split, characterData?, ih, Event.brackets]
      | _ => contradiction

/-- Events that end in markup, if there are any, are written apart from those after them. -/
theorem piecesAt_append {events : List Event}
    (hlast : ∀ event ∈ events.getLast?, event.isMarkup = true) (place : Place)
    (later : List Event) :
    piecesAt place (events ++ later) =
      piecesAt place events ++ piecesAt (placeAfter place (events.flatMap Event.brackets)) later := by
  obtain rfl | ⟨events, event, rfl⟩ := List.eq_nil_or_concat events
  · rfl
  · have hevent : event.isMarkup = true := hlast event (by simp)
    have hsplit := split_append_of_isMarkup hevent place events later
    unfold piecesAt at hsplit ⊢
    rw [List.concat_eq_append, List.append_assoc, List.singleton_append, hsplit, List.append_assoc]

theorem foldlM_brackets_of_openAfter {opens inner : List Text} {event : Event}
    (hopens : openAfter opens event = .ok inner) :
    event.brackets.foldlM opensAfter? opens = some inner := by
  cases event with
  | endTag name =>
    cases opens with
    | nil => simp [openAfter] at hopens
    | cons expected outer =>
      by_cases hname : name = expected
      · simpa [openAfter, opensAfter?, Event.brackets, hname] using hopens
      · simp [openAfter, hname] at hopens
  | emptyTag name attributes => simpa [openAfter, opensAfter?, Event.brackets] using hopens
  | _ => simpa [openAfter, opensAfter?, Event.brackets] using hopens

/-- The reader has the elements open that the brackets of its events leave open. -/
theorem foldlM_brackets_of_foldlM_openAfter {opens inner : List Text} {events : List Event}
    (hopens : events.foldlM openAfter opens = .ok inner) :
    (events.flatMap Event.brackets).foldlM opensAfter? opens = some inner := by
  induction events generalizing opens with
  | nil =>
    obtain rfl := Except.ok.inj hopens
    rfl
  | cons event events ih =>
    rw [List.foldlM_cons] at hopens
    obtain ⟨middle, hevent, hlater⟩ := exists_of_bind_openAfter hopens
    rw [List.flatMap_cons, List.foldlM_append, foldlM_brackets_of_openAfter hevent]
    exact ih hlater

/-- A text is read anew after an accepted document whose elements are all closed. -/
theorem read_append {s : Text} (haccepted : (read s).failure = none)
    (hclosed : Balanced ((read s).events.flatMap Event.brackets)) (t : Text) :
    read (s ++ t) = (read t).precededBy (read s).events := by
  obtain ⟨inner, hopens, hlater⟩ := exists_readFrom_append haccepted
  obtain rfl : inner = [] := by
    have hbrackets := foldlM_brackets_of_foldlM_openAfter hopens
    exact Option.some.inj (hbrackets.symm.trans hclosed)
  exact hlater t

/-- The failure of a text that is read inside the given elements. -/
def failureFrom (opens : List Text) (s : Text) : Option Failure :=
  (readFrom opens s).failure.map fun (fault, remaining) =>
    .malformed (s.byteSize - remaining.byteSize) fault

/-- Accepted text before another moves the failure on, and that is all. -/
theorem failureFrom_append {opens inner : List Text} {events : List Event} {s t : Text}
    (hread : readFrom opens (s ++ t) = (readFrom inner t).precededBy events) :
    failureFrom opens (s ++ t) = (failureFrom inner t).map (Failure.after s.byteSize) := by
  unfold failureFrom
  rw [hread]
  cases hfailure : (readFrom inner t).failure with
  | none => simp [Reading.precededBy, hfailure]
  | some found =>
    obtain ⟨fault, remaining⟩ := found
    obtain ⟨before, rfl, -⟩ := readFrom_before_failure hfailure
    simp only [Reading.precededBy, hfailure, Option.map_some, Failure.after, Text.byteSize_append,
      Option.some.injEq, Failure.malformed.injEq, and_true]
    omega

theorem failure_convert (input : Text) :
    (convert input).failure = failureFrom [] input.dropByteOrderMark :=
  rfl

/-- No state leaks past a document that is accepted with all its elements closed and markup at its
    end. The level, the skip zone and the open elements are those of the beginning, and whatever
    follows is converted as it is by itself, with its fault moved on by the bytes before it. -/
theorem convert_append {document : Text} (haccepted : (convert document).failure = none)
    (hclosed : Balanced (sourceBrackets document))
    (hlast : ∀ event ∈ (read document.dropByteOrderMark).events.getLast?, event.isMarkup = true)
    {later : Text} (hmark : later.head? ≠ some '\ufeff') :
    placeAfter {} (sourceBrackets document) = {} ∧
      read (document ++ later).dropByteOrderMark =
        (read later).precededBy (read document.dropByteOrderMark).events ∧
      (convert (document ++ later)).html = (convert document).html ++ (convert later).html ∧
      (convert (document ++ later)).failure = (convert later).failure.map
        (Failure.after (document.byteSize - if document.head? = some '\ufeff' then 3 else 0)) := by
  have haccepted : (read document.dropByteOrderMark).failure = none := by
    simpa [convert] using haccepted
  have hplace := placeAfter_of_balanced hclosed
  have hwhole := Text.dropByteOrderMark_append hmark document
  have hlater := Text.dropByteOrderMark_of_head? hmark
  have hread := read_append haccepted hclosed later
  refine ⟨hplace, by rw [hwhole, hread], ?_, ?_⟩
  · have hpieces : pieces ((read document.dropByteOrderMark).events ++ (read later).events) =
        pieces (read document.dropByteOrderMark).events ++ pieces (read later).events := by
      have happend := piecesAt_append hlast {} (read later).events
      rwa [← sourceBrackets, hplace] at happend
    simp only [convert, hwhole, hread, hlater, Reading.precededBy, hpieces, List.flatMap_append]
  · rw [failure_convert, failure_convert, hwhole, hlater, failureFrom_append hread,
      Text.byteSize_dropByteOrderMark]

theorem convert_append_namesakes_and_sections :
    let document : Text :=
      "\ufeff<?a?><div1><head>b - c</head></div1><pre><pre>d</pre><code>- e</code>..</pre>".toList
    let later : Text := "- <head>f..</head>&amp <g>".toList
    (convert document).failure = none ∧ Balanced (sourceBrackets document) ∧
      (∀ event ∈ (read document.dropByteOrderMark).events.getLast?, event.isMarkup = true) ∧
      later.head? ≠ some '\ufeff' ∧
      (convert (document ++ later)).html = (convert document).html ++ (convert later).html ∧
      (convert (document ++ later)).failure =
        some (.malformed (document.byteSize - 3 + 18) .unclosedReference) := by
  intro document later
  have haccepted : (convert document).failure = none := by decide +kernel
  have hclosed : Balanced (sourceBrackets document) := by decide +kernel
  have hlast : ∀ event ∈ (read document.dropByteOrderMark).events.getLast?,
      event.isMarkup = true := by decide +kernel
  have hmark : later.head? ≠ some '\ufeff' := by decide
  obtain ⟨-, -, hhtml, hfailure⟩ := convert_append haccepted hclosed hlast hmark
  refine ⟨haccepted, hclosed, hlast, hmark, hhtml, ?_⟩
  rw [hfailure]
  decide +kernel

end Dialect

end PostMarkup
