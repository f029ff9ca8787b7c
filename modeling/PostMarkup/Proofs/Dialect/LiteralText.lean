import PostMarkup.Proofs.Dialect.Concatenation
import PostMarkup.Proofs.Dialect.Content

namespace PostMarkup.Dialect

/-- The event that a character is read as when it is escaped. -/
def escapedEvent : Char → Event
  | '<' => .reference "lt".toList
  | '>' => .reference "gt".toList
  | '&' => .reference "amp".toList
  | c => .character c

theorem escapeText_of_ne {c : Char} (hless : c ≠ '<') (hgreater : c ≠ '>')
    (hampersand : c ≠ '&') : escapeText [c] = [c] := by
  simp [escapeText]

theorem spells_escapedEvent (c : Char) : Spells (escapeText [c]) (escapedEvent c) := by
  unfold escapedEvent
  split
  · have hname : ∀ d ∈ "lt".toList, d ≠ ';' ∧ d ≠ '&' ∧ d ≠ '<' := by simp
    exact spells_reference hname
  · have hname : ∀ d ∈ "gt".toList, d ≠ ';' ∧ d ≠ '&' ∧ d ≠ '<' := by simp
    exact spells_reference hname
  · have hname : ∀ d ∈ "amp".toList, d ≠ ';' ∧ d ≠ '&' ∧ d ≠ '<' := by simp
    exact spells_reference hname
  · next hless hgreater hampersand =>
    rw [escapeText_of_ne hless hgreater hampersand]
    exact spells_character hless hampersand

theorem openAfter_escapedEvent (opens : List Text) (c : Char) :
    openAfter opens (escapedEvent c) = .ok opens := by
  unfold escapedEvent
  split <;> rfl

/-- An escaped character is the same data inside a skip zone and outside. -/
theorem characterData?_escapedEvent (place : Place) (c : Char) :
    characterData? place (escapedEvent c) = some (escapeText [c]) := by
  unfold escapedEvent
  split
  · rfl
  · rfl
  · rfl
  · next hless hgreater hampersand =>
    simp [characterData?, escapeText_of_ne hless hgreater hampersand]

theorem readFrom_escapeText (opens : List Text) (s t : Text) :
    readFrom opens (escapeText s ++ t) = (readFrom opens t).precededBy (s.map escapedEvent) := by
  induction s with
  | nil => rfl
  | cons c s ih =>
    have hsource : escapeText (c :: s) ++ t = escapeText [c] ++ (escapeText s ++ t) := by
      rw [← List.append_assoc, ← escapeText_append, List.singleton_append]
    rw [hsource, readFrom_of_spells (spells_escapedEvent c) (openAfter_escapedEvent opens c), ih,
      Reading.precededBy_precededBy, List.singleton_append, List.map_cons]

/-- Two stretches of events with the same character data and the same pieces, wherever they stand. -/
def Interchangeable (events others : List Event) : Prop :=
  ∀ place, split place events = split place others

theorem split_of_characterData? {place : Place} {event : Event} {data : Text}
    (hdata : characterData? place event = some data) (events : List Event) :
    split place (event :: events) = (data ++ (split place events).1, (split place events).2) := by
  rw [split, hdata]

theorem placeAfter_of_characterData? {place : Place} {event : Event} {data : Text}
    (hdata : characterData? place event = some data) : placeAfter place event.brackets = place := by
  cases event <;> first | rfl | contradiction

/-- An event is written alike before whatever is written alike at the place after it. -/
theorem split_cons_congr (event : Event) {place : Place} {events others : List Event}
    (h : split (placeAfter place event.brackets) events =
      split (placeAfter place event.brackets) others) :
    split place (event :: events) = split place (event :: others) := by
  cases hdata : characterData? place event with
  | some data =>
    rw [placeAfter_of_characterData? hdata] at h
    rw [split_of_characterData? hdata, split_of_characterData? hdata, h]
  | none => simp only [split, hdata, snd_markup, h]

theorem Interchangeable.cons {events others : List Event} (h : Interchangeable events others)
    (event : Event) : Interchangeable (event :: events) (event :: others) :=
  fun _ => split_cons_congr event (h _)

theorem Interchangeable.append_left {events others : List Event}
    (h : Interchangeable events others) (before : List Event) :
    Interchangeable (before ++ events) (before ++ others) := by
  induction before with
  | nil => exact h
  | cons event before ih => exact ih.cons event

theorem split_escapedEvents (place : Place) (s : Text) (later : List Event) :
    split place (s.map escapedEvent ++ later) =
      (escapeText s ++ (split place later).1, (split place later).2) := by
  induction s with
  | nil => rfl
  | cons c s ih =>
    have hescaped : escapeText (c :: s) = escapeText [c] ++ escapeText s := by
      rw [← escapeText_append, List.singleton_append]
    rw [List.map_cons, List.cons_append,
      split_of_characterData? (characterData?_escapedEvent place c), ih, hescaped,
      List.append_assoc]

theorem interchangeable_literal (s : Text) (later : List Event) :
    Interchangeable (.literal s :: later) (s.map escapedEvent ++ later) := by
  intro place
  have hliteral : characterData? place (.literal s) = some (escapeText s) := rfl
  rw [split_of_characterData? hliteral, split_escapedEvents]

/-- A CDATA section and the escaped form of its content are converted alike after any accepted text,
    whatever follows. A fault can only come after them, at the same place of what follows, and it is
    the fault of reading that inside the elements that are open there. -/
theorem convert_literalSource {before : Text} (haccepted : (convert before).failure = none)
    {s : Text} (hs : ¬ "]]>".toList <:+: s) {after : Text}
    (hliteral : (before ++ Content.literalSource s ++ after).head? ≠ some '\ufeff')
    (hescaped : (before ++ escapeText s ++ after).head? ≠ some '\ufeff') :
    (convert (before ++ Content.literalSource s ++ after)).html =
        (convert (before ++ escapeText s ++ after)).html ∧
      ∃ opens, (read before).events.foldlM openAfter [] = .ok opens ∧
        (convert (before ++ Content.literalSource s ++ after)).failure =
          (failureFrom opens after).map
            (Failure.after (before ++ Content.literalSource s).byteSize) ∧
        (convert (before ++ escapeText s ++ after)).failure =
          (failureFrom opens after).map (Failure.after (before ++ escapeText s).byteSize) := by
  have hbefore : before.dropByteOrderMark = before := by
    apply Text.dropByteOrderMark_of_head?
    cases before with
    | nil => simp
    | cons c before => simpa using hliteral
  have haccepted : (readFrom [] before).failure = none := by
    simpa [convert, hbefore, read] using haccepted
  obtain ⟨opens, hopens, hlater⟩ := exists_readFrom_append haccepted
  have hreadLiteral : readFrom [] (before ++ Content.literalSource s ++ after) =
      (readFrom opens after).precededBy ((read before).events ++ [.literal s]) := by
    rw [List.append_assoc, hlater, Content.readFrom_literalSource hs,
      Reading.precededBy_precededBy, read]
  have hreadEscaped : readFrom [] (before ++ escapeText s ++ after) =
      (readFrom opens after).precededBy ((read before).events ++ s.map escapedEvent) := by
    rw [List.append_assoc, hlater, readFrom_escapeText, Reading.precededBy_precededBy, read]
  refine ⟨?_, opens, hopens, ?_, ?_⟩
  · have hsplit := (interchangeable_literal s (readFrom opens after).events).append_left
      (read before).events {}
    have hpieces : pieces ((read before).events ++ [.literal s] ++ (readFrom opens after).events) =
        pieces ((read before).events ++ s.map escapedEvent ++ (readFrom opens after).events) := by
      simpa [pieces] using congrArg (fun parts => textPieces {} parts.1 ++ parts.2) hsplit
    simp only [convert, read, Text.dropByteOrderMark_of_head? hliteral,
      Text.dropByteOrderMark_of_head? hescaped, hreadLiteral, hreadEscaped, Reading.precededBy]
    rw [← read, hpieces]
  · rw [failure_convert, Text.dropByteOrderMark_of_head? hliteral]
    exact failureFrom_append hreadLiteral
  · rw [failure_convert, Text.dropByteOrderMark_of_head? hescaped]
    exact failureFrom_append hreadEscaped

theorem convert_literalSource_in_zone :
    let before : Text := "<p>.</p><code>a&gt;<![CDATA[-]]>".toList
    let s : Text := "- <b>&amp;..]]".toList
    let after : Text := "- </code> -</p>".toList
    (convert before).failure = none ∧ ¬ "]]>".toList <:+: s ∧
      (before ++ Content.literalSource s ++ after).head? ≠ some '\ufeff' ∧
      (before ++ escapeText s ++ after).head? ≠ some '\ufeff' ∧
      (convert (before ++ Content.literalSource s ++ after)).html =
        (convert (before ++ escapeText s ++ after)).html ∧
      (convert (before ++ Content.literalSource s ++ after)).failure =
        some (.malformed ((before ++ Content.literalSource s).byteSize + 11)
          (.strayEndTag "p".toList)) ∧
      (convert (before ++ escapeText s ++ after)).failure =
        some (.malformed ((before ++ escapeText s).byteSize + 11) (.strayEndTag "p".toList)) := by
  intro before s after
  have haccepted : (convert before).failure = none := by decide +kernel
  have hs : ¬ "]]>".toList <:+: s := by decide
  have hliteral : (before ++ Content.literalSource s ++ after).head? ≠ some '\ufeff' := by decide
  have hescaped : (before ++ escapeText s ++ after).head? ≠ some '\ufeff' := by decide
  obtain ⟨hhtml, opens, hopens, hfailureLiteral, hfailureEscaped⟩ :=
    convert_literalSource haccepted hs hliteral hescaped
  obtain rfl : ["code".toList] = opens := by
    have hread : (read before).events.foldlM openAfter [] = .ok ["code".toList] := by
      decide +kernel
    exact Except.ok.inj (hread.symm.trans hopens)
  have hfault : failureFrom ["code".toList] after =
      some (.malformed 11 (.strayEndTag "p".toList)) := by decide +kernel
  rw [hfault] at hfailureLiteral hfailureEscaped
  exact ⟨haccepted, hs, hliteral, hescaped, hhtml, hfailureLiteral, hfailureEscaped⟩

end PostMarkup.Dialect
