import PostMarkup.Proofs.Dialect.EventText
import PostMarkup.Proofs.Dialect.OutputAttributes
import PostMarkup.Proofs.Dialect.TagReading
import PostMarkup.Proofs.Html.PlainText
import PostMarkup.Proofs.Typography.References

namespace PostMarkup.Dialect

open Html (IsTagName IsKey Quotable contentModel?)
open Reference (InOrder isNameCharacter named? inOrder_of_named?)

/-- A Latin letter, and then Latin letters and digits, all in lower case. -/
def IsLowerName (name : Text) : Prop := IsPlainName name ∧ name.lower = name

instance : DecidablePred IsLowerName := fun _ => inferInstanceAs (Decidable (_ ∧ _))

section

variable {name : Text} (hname : IsLowerName name)

include hname

theorem IsLowerName.plain : ∀ c ∈ name, Html.endsName c = false ∧ c ≠ '\r' := by
  intro c hc
  have halnum := hname.1.isAlphanum c hc
  refine ⟨?_, ne_of_isAlphanum halnum rfl⟩
  rw [Bool.eq_false_iff]
  intro hends
  simp only [Html.endsName, Html.isTagBlank, Bool.or_eq_true, decide_eq_true_eq, or_assoc] at hends
  obtain rfl | rfl | rfl | rfl | rfl | rfl := hends <;> contradiction

theorem IsLowerName.folded : Html.foldName name = name := by
  have hlower := hname.2
  refine (List.map_congr_left fun c hc => ?_).trans hlower
  have halnum := hname.1.isAlphanum c hc
  have hnull : c.toLower ≠ '\x00' := by
    rw [Ne, Text.toLower_eq_iff rfl]
    exact ne_of_isAlphanum halnum rfl
  rw [Html.visible, if_neg hnull]

theorem IsLowerName.isTagName : IsTagName name where
  letter := by
    have hplain := hname.1
    cases name with
    | nil => contradiction
    | cons c name => exact hplain.1
  plain := hname.plain
  folded := hname.folded

theorem IsLowerName.isKey : IsKey name where
  nonempty := by
    rintro rfl
    exact hname.1
  plain := hname.plain
  equals hmem := absurd (hname.1.isAlphanum _ (List.mem_of_mem_tail hmem)) (by decide)
  folded := hname.folded

end

theorem isKey_added {key : Text} (hkey : key ∈ addedKeys) : IsKey key := by
  have hall : addedKeys.all (fun key => decide (IsLowerName key)) = true := by decide
  have hlower : IsLowerName key := of_decide_eq_true (List.all_eq_true.1 hall key hkey)
  exact hlower.isKey

/-- Keys that the reader of HTML takes as they stand are joined by no others. -/
theorem quotable_outputAttributes (source output : Text) {attributes : List Attribute}
    (hkeys : ∀ entry ∈ attributes, IsKey entry.key) :
    ∀ entry ∈ outputAttributes source output attributes, Quotable entry := by
  intro entry hentry
  refine ⟨?_, quote_not_mem_outputAttributes source output attributes entry hentry⟩
  obtain hadded | hkey := key_of_mem_outputAttributes hentry
  · exact isKey_added hadded
  · obtain ⟨read, hread, hsame⟩ := List.mem_map.1 hkey
    exact hsame ▸ hkeys read hread

/-- An element whose content is read as ordinary markup in HTML. -/
def IsOrdinaryName (name : Text) : Prop := IsLowerName name ∧ contentModel? name = none

instance : DecidablePred IsOrdinaryName := fun _ => inferInstanceAs (Decidable (_ ∧ _))

theorem isOrdinaryName_headingName (level : Option SectionLevel) :
    IsOrdinaryName (headingName level) := by
  obtain _ | level := level
  · decide
  · cases level <;> decide

/-- The names that elements are renamed to. -/
def outputNames : List Text := ["pre", "blockquote", "a", "div"].map String.toList

theorem isOrdinaryName_of_renamed {source name : Text}
    (hmeaning : meaning? source = some (.renamed name)) : IsOrdinaryName name := by
  have hall : outputNames.all (fun name => decide (IsOrdinaryName name)) = true := by
    decide
  have hname : name ∈ outputNames := by
    unfold meaning? at hmeaning
    split at hmeaning
    all_goals simp only [Option.some.injEq, Meaning.renamed.injEq, reduceCtorEq] at hmeaning
    all_goals
      subst hmeaning
      decide
  exact of_decide_eq_true (List.all_eq_true.1 hall name hname)

/-- The dialect writes ordinary elements as ordinary elements. -/
theorem isOrdinaryName_of_outputName? {level : Option SectionLevel} {source output : Text}
    (hsource : IsOrdinaryName source) (houtput : outputName? level source = some output) :
    IsOrdinaryName output := by
  unfold outputName? at houtput
  split at houtput
  · next hmeaning =>
    obtain rfl := Option.some.inj houtput
    exact isOrdinaryName_of_renamed hmeaning
  · contradiction
  · obtain rfl := Option.some.inj houtput
    exact isOrdinaryName_headingName level
  · obtain rfl := Option.some.inj houtput
    exact hsource

/-- The markup of ordinary documents: elements whose content is markup again, with plain keys, and
    references by name. -/
def Event.IsOrdinary : Event → Prop
  | .startTag name attributes | .emptyTag name attributes =>
    IsOrdinaryName name ∧ ∀ entry ∈ attributes, IsLowerName entry.key
  | .endTag name => IsOrdinaryName name
  | .reference name => name.all isNameCharacter ∧ (named? name).isSome
  | .directive _ => False
  | _ => True

instance : DecidablePred Event.IsOrdinary
  | .startTag .. | .emptyTag .. => inferInstanceAs (Decidable (_ ∧ _))
  | .endTag name => inferInstanceAs (Decidable (IsOrdinaryName name))
  | .reference _ => inferInstanceAs (Decidable (_ ∧ _))
  | .directive _ => inferInstanceAs (Decidable False)
  | .character _ | .literal _ => inferInstanceAs (Decidable True)

/-- A piece that is read as what it was written for. -/
def Piece.IsOrdinary : Piece → Prop
  | .startTag name attributes => IsOrdinaryName name ∧ ∀ entry ∈ attributes, Quotable entry
  | .endTag name => IsOrdinaryName name
  | .text written => InOrder written
  | .directive _ => False

section

variable {place : Place} {source : Text} (hsource : IsOrdinaryName source)

include hsource

theorem isOrdinary_startPieces {attributes : List Attribute}
    (hkeys : ∀ entry ∈ attributes, IsLowerName entry.key) :
    ∀ piece ∈ startPieces place source attributes, piece.IsOrdinary := by
  unfold startPieces
  split
  · next output houtput =>
    have hquotable := quotable_outputAttributes source output fun entry hentry =>
      (hkeys entry hentry).isKey
    rw [List.forall_mem_singleton]
    exact ⟨isOrdinaryName_of_outputName? hsource houtput, hquotable⟩
  · simp

theorem isOrdinary_endPieces : ∀ piece ∈ endPieces place source, piece.IsOrdinary := by
  unfold endPieces
  split
  · next output houtput =>
    rw [List.forall_mem_singleton]
    exact isOrdinaryName_of_outputName? hsource houtput
  · simp

end

theorem isOrdinary_markup {event : Event} (hevent : event.IsOrdinary) (place : Place) :
    ∀ piece ∈ (markup place event).1, piece.IsOrdinary := by
  cases event with
  | startTag name attributes => exact isOrdinary_startPieces hevent.1 hevent.2
  | emptyTag name attributes =>
    exact List.forall_mem_append.2
      ⟨isOrdinary_startPieces hevent.1 hevent.2, isOrdinary_endPieces hevent.1⟩
  | endTag name => exact isOrdinary_endPieces hevent
  | directive written => contradiction
  | _ => simp [markup]

theorem isOrdinary_textPieces {data : Text} (hdata : InOrder data) (place : Place) :
    ∀ piece ∈ textPieces place data, piece.IsOrdinary := by
  unfold textPieces
  split
  · simp
  · rw [List.forall_mem_singleton]
    split
    · exact hdata
    · exact Typography.inOrder_dialect_apply hdata

section

variable {s : Text} (hnull : '\x00' ∉ s) (hreturn : '\r' ∉ s)

include hnull hreturn

theorem inOrder_characterData? {event : Event} (hevent : event.IsOrdinary)
    (hfrom : event.IsFrom s) {place : Place} {data : Text}
    (hdata : characterData? place event = some data) : InOrder data := by
  cases event with
  | character c =>
    obtain ⟨hc, hangle, hampersand⟩ := hfrom
    have hother : '\x00' ∉ [c] ∧ '\r' ∉ [c] := by
      simp only [List.mem_singleton]
      exact ⟨fun heq => hnull (heq ▸ hc), fun heq => hreturn (heq ▸ hc)⟩
    obtain rfl := Option.some.inj hdata
    split
    · exact Html.inOrder_escapeText hother
    · refine .character (fun hbad => ?_) .nil
      simp only [String.reduceToList, List.mem_cons, List.not_mem_nil, or_false] at hbad
      obtain heq | heq | heq | heq := hbad
      · exact hangle heq
      · exact hampersand heq
      · exact hother.1 (by simp [heq])
      · exact hother.2 (by simp [heq])
  | reference name =>
    obtain ⟨text, hnamed⟩ := Option.isSome_iff_exists.1 hevent.2
    obtain rfl := Option.some.inj hdata
    exact inOrder_of_named? (List.all_eq_true.1 hevent.1) hnamed
  | literal content =>
    obtain rfl := Option.some.inj hdata
    exact Html.inOrder_escapeText ⟨fun hmem => hnull (hfrom hmem), fun hmem => hreturn (hfrom hmem)⟩
  | _ => contradiction

theorem isOrdinary_split {events : List Event}
    (hevents : ∀ event ∈ events, event.IsOrdinary ∧ event.IsFrom s) (place : Place) :
    InOrder (split place events).1 ∧ ∀ piece ∈ (split place events).2, piece.IsOrdinary := by
  induction events generalizing place with
  | nil => exact ⟨.nil, by simp [split]⟩
  | cons event events ih =>
    obtain ⟨⟨hevent, hfrom⟩, hevents⟩ := List.forall_mem_cons.1 hevents
    rw [split]
    split
    · next data hdata =>
      obtain ⟨hlater, hpieces⟩ := ih hevents place
      exact ⟨(inOrder_characterData? hnull hreturn hevent hfrom hdata).append hlater, hpieces⟩
    · obtain ⟨hlater, hpieces⟩ := ih hevents (markup place event).2
      refine ⟨.nil, List.forall_mem_append.2 ⟨List.forall_mem_append.2 ⟨?_, ?_⟩, hpieces⟩⟩
      · exact isOrdinary_markup hevent place
      · exact isOrdinary_textPieces hlater _

end

/-- Ordinary documents are written in ordinary pieces. -/
theorem isOrdinary_pieces {s : Text} (hnull : '\x00' ∉ s) (hreturn : '\r' ∉ s)
    (hevents : ∀ event ∈ (read s).events, event.IsOrdinary) :
    ∀ piece ∈ pieces (read s).events, piece.IsOrdinary := by
  have hfrom : ∀ event ∈ (read s).events, event.IsFrom s := isFrom_of_mem_readFrom
  obtain ⟨hlead, hpieces⟩ := isOrdinary_split hnull hreturn
    (fun event hevent => And.intro (hevents event hevent) (hfrom event hevent)) {}
  exact List.forall_mem_append.2 ⟨isOrdinary_textPieces hlead {}, hpieces⟩

end PostMarkup.Dialect
