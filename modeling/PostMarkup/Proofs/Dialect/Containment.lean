import PostMarkup.Proofs.Dialect.EventText
import PostMarkup.Proofs.Dialect.OutputAttributes
import PostMarkup.Proofs.Html.WrittenText
import PostMarkup.Proofs.Typography.Alphabet

namespace PostMarkup.Dialect

open Html (angle_not_mem_escapeText escapeText_cons)

/-- Every ampersand begins a reference, which ends before the next ampersand. -/
def ClosesReferences (s : Text) : Prop :=
  ∀ before after, s = before ++ '&' :: after → ∃ name rest, after = name ++ ';' :: rest ∧ '&' ∉ name

namespace ClosesReferences

theorem of_not_mem {s : Text} (hs : '&' ∉ s) : ClosesReferences s := by
  rintro before after rfl
  exact absurd (by simp) hs

theorem append {s t : Text} (hs : ClosesReferences s) (ht : ClosesReferences t) :
    ClosesReferences (s ++ t) := by
  intro before after heq
  obtain ⟨later, rfl, htail⟩ | ⟨middle, hhead, htail⟩ := List.append_eq_append_iff.1 heq
  · exact ht later after htail
  · cases middle with
    | nil => exact ht [] after htail.symm
    | cons c middle =>
      obtain ⟨rfl, rfl⟩ := List.cons.inj htail
      obtain ⟨name, rest, rfl, hname⟩ := hs before middle hhead
      exact ⟨name, rest ++ t, by simp, hname⟩

theorem reference {name : Text} (hname : '&' ∉ name) : ClosesReferences ('&' :: name ++ [';']) := by
  intro before after heq
  cases before with
  | nil =>
    obtain ⟨-, rfl⟩ := List.cons.inj heq
    exact ⟨name, [], rfl, hname⟩
  | cons c before =>
    have hlater : name ++ [';'] = before ++ '&' :: after := (List.cons.inj heq).2
    have hmem : '&' ∈ name ++ [';'] := hlater ▸ by simp
    exact absurd hmem (by simp [hname])

theorem escaped (s : Text) : ClosesReferences (escapeText s) := by
  induction s with
  | nil => exact of_not_mem List.not_mem_nil
  | cons c s ih =>
    obtain ⟨name, hescape, heq⟩ | ⟨-, hampersand, heq⟩ := escapeText_cons c s
    · have hname : ∀ entry ∈ Reference.escapes, '&' ∉ entry.2 := by decide
      rw [heq]
      simpa using (reference (hname _ hescape)).append ih
    · rw [heq]
      exact (of_not_mem (s := [c]) (by simpa using hampersand.symm)).append ih

end ClosesReferences

/-- Character data that begins no tag. In the skip zone it ends the references that it begins. -/
structure IsContained (zone : SkipZone) (data : Text) : Prop where
  angle : '<' ∉ data
  references : zone.isActive = true → ClosesReferences data

theorem IsContained.append {zone : SkipZone} {data more : Text} (h : IsContained zone data)
    (hmore : IsContained zone more) : IsContained zone (data ++ more) where
  angle := by simp [h.angle, hmore.angle]
  references hactive := (h.references hactive).append (hmore.references hactive)

theorem isContained_nil (zone : SkipZone) : IsContained zone [] where
  angle := List.not_mem_nil
  references _ := .of_not_mem List.not_mem_nil

theorem isContained_escapeText (zone : SkipZone) (s : Text) : IsContained zone (escapeText s) where
  angle := angle_not_mem_escapeText s
  references _ := .escaped s

/-- The four sources of character data, each with its own way to be written. -/
theorem isContained_characterData? {s : Text} {event : Event} (hfrom : event.IsFrom s) {place : Place}
    {data : Text} (hdata : characterData? place event = some data) :
    IsContained place.zone data := by
  cases event with
  | character c =>
    obtain rfl := Option.some.inj hdata
    split
    · exact isContained_escapeText place.zone [c]
    · next hinactive => exact ⟨by simpa using hfrom.2.1.symm, fun hactive => absurd hactive hinactive⟩
  | reference name =>
    obtain ⟨hangle, hampersand⟩ := hfrom
    obtain rfl := Option.some.inj hdata
    exact ⟨by simp [hangle], fun _ => .reference hampersand⟩
  | literal content =>
    obtain rfl := Option.some.inj hdata
    exact isContained_escapeText place.zone content
  | _ => contradiction

theorem angle_not_mem_dialect_apply {s : Text} (hs : '<' ∉ s) :
    '<' ∉ Typography.RuleSet.dialect.apply s := by
  intro hmem
  have hsource := Typography.RuleSet.apply_subset
    (fun _ hrule => Typography.writesSigns_of_mem_dialect hrule) s hmem
  have hsigns : '<' ∉ Typography.signs := by decide
  exact (List.mem_append.1 hsource).elim hsigns hs

/-- A piece of text that is contained where it stands, or a tag whose values their quotes hold. -/
def Piece.IsContained (zone : SkipZone) : Piece → Prop
  | .text written => Dialect.IsContained zone written
  | .startTag _ attributes => ∀ entry ∈ attributes, '"' ∉ entry.value
  | _ => True

theorem isContained_textPieces {place : Place} {data : Text} (hdata : IsContained place.zone data) :
    ∀ piece ∈ textPieces place data, piece.IsContained place.zone := by
  unfold textPieces
  split
  · simp
  · rw [List.forall_mem_singleton]
    split
    · exact hdata
    · next hinactive =>
      exact ⟨angle_not_mem_dialect_apply hdata.angle, fun hactive => absurd hactive hinactive⟩

theorem isContained_startPieces (place : Place) (source : Text) (attributes : List Attribute)
    (zone : SkipZone) : ∀ piece ∈ startPieces place source attributes, piece.IsContained zone := by
  unfold startPieces
  split
  · next output _ =>
    rw [List.forall_mem_singleton]
    exact quote_not_mem_outputAttributes source output attributes
  · simp

theorem isContained_endPieces (place : Place) (source : Text) (zone : SkipZone) :
    ∀ piece ∈ endPieces place source, piece.IsContained zone := by
  unfold endPieces
  split
  · rw [List.forall_mem_singleton]
    trivial
  · simp

theorem isContained_markup (place : Place) (event : Event) (zone : SkipZone) :
    ∀ piece ∈ (markup place event).1, piece.IsContained zone := by
  cases event with
  | startTag name attributes => exact isContained_startPieces place name attributes zone
  | emptyTag name attributes =>
    exact List.forall_mem_append.2 ⟨isContained_startPieces place name attributes zone,
      isContained_endPieces _ name zone⟩
  | endTag name => exact isContained_endPieces place name zone
  | directive written => simp [markup, Piece.IsContained]
  | _ => simp [markup]

/-- The pieces of some events after the character data that is not written yet, each with the place
    at which it is written. -/
def placedPieces (place : Place) (data : Text) : List Event → List (Place × Piece)
  | [] => (textPieces place data).map (place, ·)
  | event :: events =>
    match characterData? place event with
    | some more => placedPieces place (data ++ more) events
    | none =>
      let (written, next) := markup place event
      (textPieces place data ++ written).map (place, ·) ++ placedPieces next [] events

theorem map_snd_placedPieces (place : Place) (data : Text) (events : List Event) :
    (placedPieces place data events).map Prod.snd =
      textPieces place (data ++ (split place events).1) ++ (split place events).2 := by
  induction events generalizing place data with
  | nil => simp [placedPieces, split, Function.comp_def]
  | cons event events ih =>
    cases hevent : characterData? place event with
    | some more => simp [placedPieces, split, hevent, ih]
    | none => simp [placedPieces, split, hevent, ih, Function.comp_def]

theorem isContained_placedPieces {s : Text} {events : List Event}
    (hfrom : ∀ event ∈ events, event.IsFrom s) {place : Place} {data : Text}
    (hdata : IsContained place.zone data) :
    ∀ entry ∈ placedPieces place data events, entry.2.IsContained entry.1.zone := by
  induction events generalizing place data with
  | nil => exact List.forall_mem_map.2 (isContained_textPieces hdata)
  | cons event events ih =>
    obtain ⟨hevent, hevents⟩ := List.forall_mem_cons.1 hfrom
    rw [placedPieces]
    split
    · next more hmore => exact ih hevents (hdata.append (isContained_characterData? hevent hmore))
    · refine List.forall_mem_append.2 ⟨List.forall_mem_map.2 (List.forall_mem_append.2 ?_), ?_⟩
      · exact ⟨isContained_textPieces hdata, isContained_markup place event place.zone⟩
      · exact ih hevents (isContained_nil _)

/-- Of every text, well formed or not, no written stretch of character data has an angle bracket that
    opens markup, and those in the skip zone close the references that they begin. Every start tag is
    a name with values between double quotes, and no value has a double quote. -/
theorem convert_contained (input : Text) :
    let placed := placedPieces {} [] (read input.dropByteOrderMark).events
    placed.map Prod.snd = pieces (read input.dropByteOrderMark).events ∧
      (convert input).html = placed.flatMap (fun entry => entry.2.write) ∧
      (∀ place written, (place, .text written) ∈ placed →
        '<' ∉ written ∧ (place.zone.isActive = true → ClosesReferences written)) ∧
      ∀ place name attributes, (place, .startTag name attributes) ∈ placed →
        (Piece.startTag name attributes).write =
          '<' :: name ++ attributes.flatMap (fun entry =>
            ' ' :: entry.key ++ "=\"".toList ++ entry.value ++ ['"']) ++ ['>'] ∧
        ∀ entry ∈ attributes, '"' ∉ entry.value := by
  intro placed
  have hpieces : placed.map Prod.snd = pieces (read input.dropByteOrderMark).events :=
    map_snd_placedPieces {} [] _
  have hcontained : ∀ entry ∈ placed, entry.2.IsContained entry.1.zone :=
    isContained_placedPieces isFrom_of_mem_readFrom (isContained_nil _)
  refine ⟨hpieces, ?_, fun place written hmem => ?_, fun place name attributes hmem => ⟨rfl, ?_⟩⟩
  · rw [convert, ← hpieces, List.flatMap_map]
  · have htext : IsContained place.zone written := hcontained _ hmem
    exact ⟨htext.angle, htext.references⟩
  · exact hcontained _ hmem

/-- References and literal text of a link, which is a skip zone. -/
example : placedPieces {} [] (read "<a>&lt;<![CDATA[<b>]]>".toList).events =
    [({}, .startTag "a".toList [Link.marker]),
      (⟨none, ⟨some "a".toList⟩⟩, .text "&lt;&lt;b&gt;".toList)] := by
  decide +kernel

end PostMarkup.Dialect
