import PostMarkup.Proofs.Dialect.OutputNesting
import PostMarkup.Proofs.Text.Visible
import PostMarkup.Proofs.Typography.Signs
import PostMarkup.Proofs.Typography.Silence

namespace PostMarkup

namespace Typography

/-- A rule that matches nothing but visible text, and writes something visible for it. -/
structure Rule.KeepsVisibility (rule : Rule) : Prop where
  reads : ∀ before s found, rule before s = some found → s.isVisible
  writes : ∀ before s found, rule before s = some found → found.written.isVisible

theorem Rule.KeepsVisibility.isSilent {rule : Rule} (hrule : rule.KeepsVisibility)
    (before : Option Char) {s : Text} (hs : s.isVisible = false) : rule.IsSilent before s := by
  induction s generalizing before with
  | nil => exact trivial
  | cons c s ih =>
    refine ⟨Option.isNone_iff_eq_none.2 (Option.eq_none_iff_forall_ne_some.2 fun found hfound => ?_),
      ih _ ?_⟩
    · have hvisible := hrule.reads _ _ _ hfound
      simp [hs] at hvisible
    · simp only [Text.isVisible, List.any_cons, Bool.or_eq_false_iff] at hs
      exact hs.2

/-- The first visible character is kept, or a match covers it and writes another. -/
theorem Rule.KeepsVisibility.scan {rule : Rule} (hrule : rule.KeepsVisibility)
    (before : Option Char) {s : Text} (hs : s.isVisible = true) :
    (rule.scan before 0 s).isVisible = true := by
  induction s generalizing before with
  | nil => contradiction
  | cons c s ih =>
    rw [Rule.scan]
    split
    · next found hfound =>
      rw [Text.isVisible_append, hrule.writes _ _ _ hfound, Bool.true_or]
    · simp only [Text.isVisible, List.any_cons, Bool.or_eq_true] at hs ⊢
      exact hs.imp id (ih _)

theorem RuleSet.isVisible_apply {rules : RuleSet} (hrules : ∀ rule ∈ rules, rule.KeepsVisibility)
    (s : Text) : (rules.apply s).isVisible = s.isVisible := by
  cases hs : s.isVisible with
  | false => rw [RuleSet.apply_of_isSilent fun rule hrule => (hrules rule hrule).isSilent none hs, hs]
  | true =>
    induction rules generalizing s with
    | nil => exact hs
    | cons rule rules ih =>
      obtain ⟨hrule, hrules⟩ := List.forall_mem_cons.1 hrules
      exact ih hrules (rule.apply s) (hrule.scan none hs)

theorem keepsVisibility_of_mem_dialect {rule : Rule} (hrule : rule ∈ RuleSet.dialect) :
    rule.KeepsVisibility where
  reads before s found hfound := by
    have htyped : typedSigns.all (fun c => !isBlank c) = true := by decide
    obtain ⟨c, hmem, hc⟩ := (isSign_of_mem_dialect hrule hfound).typed
    have hvisible : isBlank c = false := by simpa using List.all_eq_true.1 htyped c hc
    exact Text.isVisible_of_mem hvisible (List.mem_of_mem_take hmem)
  writes before s found hfound := by
    obtain ⟨_ | ⟨name, names⟩, blanks, hnonempty, -, -, -, hwritten⟩ :=
      (isSign_of_mem_dialect hrule hfound).writes
    · contradiction
    · rw [hwritten]
      exact Text.isVisible_of_mem (c := '&') (by decide) (by simp [reference])

theorem isVisible_dialect_apply (s : Text) : (RuleSet.dialect.apply s).isVisible = s.isVisible :=
  RuleSet.isVisible_apply (fun _ hrule => keepsVisibility_of_mem_dialect hrule) s

end Typography

namespace Dialect

/-- The event brings a tag or visible text into the output. The tags of sections are not written. -/
def Event.isVisible : Event → Bool
  | .character c => !isBlank c
  | .reference _ => true
  | .literal content => content.isVisible
  | .startTag name _ | .emptyTag name _ | .endTag name => !isSection name
  | .directive _ => false

def Event.isDirective : Event → Bool
  | .directive _ => true
  | _ => false

theorem isVisible_characterData? {place : Place} {event : Event} {data : Text}
    (hdata : characterData? place event = some data) :
    data.isVisible = event.isVisible ∧ event.isDirective = false := by
  cases event with
  | character c =>
    obtain rfl := Option.some.inj hdata
    refine ⟨?_, rfl⟩
    split
    · rw [Text.isVisible_escapeText]
      simp [Text.isVisible, Event.isVisible]
    · simp [Text.isVisible, Event.isVisible]
  | reference name =>
    obtain rfl := Option.some.inj hdata
    exact ⟨Text.isVisible_of_mem (c := '&') (by decide) (by simp), rfl⟩
  | literal content =>
    obtain rfl := Option.some.inj hdata
    exact ⟨Text.isVisible_escapeText content, rfl⟩
  | _ => contradiction

theorem isVisible_textPieces (place : Place) (data : Text) :
    Text.isVisible ((textPieces place data).flatMap Piece.write) = data.isVisible := by
  cases data with
  | nil => rfl
  | cons c data =>
    simp only [textPieces, List.flatMap_cons, List.flatMap_nil, List.append_nil, Piece.write]
    split
    · rfl
    · exact Typography.isVisible_dialect_apply (c :: data)

/-- A tag is written for every element that is not a section. -/
theorem isVisible_outputName? (place : Place) (source : Text) {tag : Text → Piece}
    (htag : ∀ output, (tag output).write.isVisible) :
    Text.isVisible ((match outputName? place.level source with
      | some output => [tag output]
      | none => []).flatMap Piece.write) = !isSection source := by
  cases houtput : outputName? place.level source with
  | none =>
    rw [outputName?_eq_none_iff.1 houtput]
    rfl
  | some output =>
    have hsection : isSection source = false := by
      have hnamed : outputName? place.level source ≠ none := by simp [houtput]
      rwa [ne_eq, outputName?_eq_none_iff, Bool.not_eq_true] at hnamed
    simpa [hsection] using htag output

theorem isVisible_startPieces (place : Place) (source : Text) (attributes : List Attribute) :
    Text.isVisible ((startPieces place source attributes).flatMap Piece.write) =
      !isSection source :=
  isVisible_outputName? place source fun output =>
    Text.isVisible_of_mem (c := '<') (by decide) (by simp [Piece.write])

theorem isVisible_endPieces (place : Place) (source : Text) :
    Text.isVisible ((endPieces place source).flatMap Piece.write) = !isSection source :=
  isVisible_outputName? place source fun output =>
    Text.isVisible_of_mem (c := '<') (by decide) (by simp [Piece.write])

theorem isVisible_markup {place : Place} {event : Event}
    (hdirective : ∀ written, event = .directive written → written.isVisible)
    (hdata : characterData? place event = none) :
    Text.isVisible ((markup place event).1.flatMap Piece.write) =
      (event.isVisible || event.isDirective) := by
  cases event with
  | startTag name attributes =>
    simp [markup, isVisible_startPieces, Event.isVisible, Event.isDirective]
  | emptyTag name attributes =>
    simp [markup, isVisible_startPieces, isVisible_endPieces, Event.isVisible, Event.isDirective]
  | endTag name => simp [markup, isVisible_endPieces, Event.isVisible, Event.isDirective]
  | directive written =>
    simp [markup, Piece.write, hdirective written rfl, Event.isVisible, Event.isDirective]
  | _ => contradiction

/-- The induction keeps the character data apart from the pieces after it, as the converter does. -/
theorem isVisible_split {events : List Event}
    (hdirective : ∀ written, .directive written ∈ events → written.isVisible) (place : Place) :
    ((split place events).1.isVisible ||
        Text.isVisible ((split place events).2.flatMap Piece.write)) =
      events.any fun event => event.isVisible || event.isDirective := by
  induction events generalizing place with
  | nil => rfl
  | cons event events ih =>
    have hlater := ih (fun written hmem => hdirective written (by simp [hmem]))
    rw [List.any_cons]
    cases hdata : characterData? place event with
    | some data =>
      obtain ⟨hvisible, hevent⟩ := isVisible_characterData? hdata
      simp only [split, hdata, Text.isVisible_append, Bool.or_assoc, hvisible, hevent, hlater,
        Bool.false_or]
    | none =>
      have hwritten := isVisible_markup (fun written heq => hdirective written (by simp [heq])) hdata
      simp only [split, hdata, List.flatMap_append, Text.isVisible_append, isVisible_textPieces,
        hwritten, Bool.or_assoc, hlater]
      rfl

theorem head?_of_readDocumentType {whole s rest written : Text}
    (hread : readDocumentType whole s = .event (.directive written) rest) :
    written.head? = some '<' := by
  simp only [readDocumentType] at hread
  split at hread
  · contradiction
  · split at hread
    · contradiction
    · cases hread
      rfl

theorem head?_of_readDeclaration {s rest written : Text}
    (hread : readDeclaration s = .event (.directive written) rest) : written.head? = some '<' := by
  simp only [readDeclaration] at hread
  split at hread
  · split at hread
    · cases hread
      rfl
    · contradiction
  · split at hread <;> cases hread
  · split at hread
    · split at hread
      · exact head?_of_readDocumentType hread
      · contradiction
    · contradiction
  · contradiction

theorem head?_of_readInstruction {s rest written : Text}
    (hread : readInstruction s = .event (.directive written) rest) : written.head? = some '<' := by
  simp only [readInstruction] at hread
  split at hread
  · contradiction
  · split at hread
    · cases hread
      rfl
    · contradiction

theorem head?_of_nextEvent {s rest written : Text}
    (hnext : nextEvent s = .event (.directive written) rest) : written.head? = some '<' := by
  unfold nextEvent at hnext
  split at hnext
  · contradiction
  · simp only [readReference] at hnext
    split at hnext <;> cases hnext
  · exact head?_of_readDeclaration hnext
  · exact head?_of_readInstruction hnext
  · obtain ⟨inside, -, heq, -⟩ := exists_of_readTag hnext
    unfold endTag at heq
    split at heq <;> contradiction
  · obtain ⟨inside, -, heq, -⟩ := exists_of_readTag hnext
    unfold startTag at heq
    split at heq <;> contradiction
  · cases hnext

/-- Directives are never blank. -/
theorem isVisible_of_mem_readFrom (opens : List Text) (s : Text) :
    ∀ written, .directive written ∈ (readFrom opens s).events → written.isVisible := by
  fun_induction readFrom opens s with
  | case1 => simp
  | case2 => simp
  | case3 => simp
  | case4 opens s event rest hnext inner hopens later ih =>
    intro written hmem
    obtain rfl | hmem := List.mem_cons.1 hmem
    · have hhead := head?_of_nextEvent hnext
      exact Text.isVisible_of_mem (by decide) (List.mem_of_mem_head? hhead)
    · exact ih written hmem

/-- The output of a document shows something if one of its events does or is a directive. -/
theorem isVisible_convert (input : Text) :
    (convert input).html.isVisible = (read input.dropByteOrderMark).events.any
      fun event => event.isVisible || event.isDirective := by
  have hsplit := isVisible_split (isVisible_of_mem_readFrom [] input.dropByteOrderMark) {}
  rw [read, ← hsplit]
  simp only [convert, pieces, List.flatMap_append, Text.isVisible_append, isVisible_textPieces]
  rfl

end Dialect

end PostMarkup
