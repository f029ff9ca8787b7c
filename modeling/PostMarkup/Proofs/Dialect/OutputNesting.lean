import PostMarkup.Proofs.Dialect.Brackets
import PostMarkup.Proofs.Dialect.Reading

namespace PostMarkup.Dialect

/-- An element that sets a level and is not written. -/
def isSection (source : Text) : Bool :=
  match meaning? source with
  | some (.sectioning _) => true
  | _ => false

def Bracket.isSection : Bracket → Bool
  | .opening source | .closing source => Dialect.isSection source

def Bracket.levelAfter (level : Option SectionLevel) : Bracket → Option SectionLevel
  | .opening source => (Place.enter { level } source).level
  | .closing source => (Place.leave { level } source).level

/-- The bracket that stands in the output for one of the source, if any. -/
def Bracket.output? (level : Option SectionLevel) : Bracket → Option Bracket
  | .opening source => (outputName? level source).map .opening
  | .closing source => (outputName? level source).map .closing

/-- The level in force after some brackets of the source. -/
def levelAfter (level : Option SectionLevel) (brackets : List Bracket) : Option SectionLevel :=
  brackets.foldl Bracket.levelAfter level

def outputBrackets (level : Option SectionLevel) : List Bracket → List Bracket
  | [] => []
  | bracket :: brackets =>
    (bracket.output? level).toList ++ outputBrackets (bracket.levelAfter level) brackets

theorem levelAfter_append (level : Option SectionLevel) (brackets more : List Bracket) :
    levelAfter level (brackets ++ more) = levelAfter (levelAfter level brackets) more :=
  List.foldl_append

theorem outputBrackets_append (level : Option SectionLevel) (brackets more : List Bracket) :
    outputBrackets level (brackets ++ more) =
      outputBrackets level brackets ++ outputBrackets (levelAfter level brackets) more := by
  induction brackets generalizing level with
  | nil => rfl
  | cons bracket brackets ih => simp [outputBrackets, levelAfter, ih]

@[simp]
theorem filterMap_bracket?_textPieces (place : Place) (data : Text) :
    (textPieces place data).filterMap Piece.bracket? = [] := by
  cases data <;> rfl

theorem filterMap_bracket?_startPieces (place : Place) (source : Text)
    (attributes : List Attribute) : (startPieces place source attributes).filterMap Piece.bracket? =
      ((Bracket.opening source).output? place.level).toList := by
  simp only [startPieces, Bracket.output?]
  cases outputName? place.level source <;> rfl

theorem filterMap_bracket?_endPieces (place : Place) (source : Text) :
    (endPieces place source).filterMap Piece.bracket? =
      ((Bracket.closing source).output? place.level).toList := by
  simp only [endPieces, Bracket.output?]
  cases outputName? place.level source <;> rfl

/-- The conversion writes these brackets, whatever text and directives stand between them. -/
theorem filterMap_bracket?_split (place : Place) (events : List Event) :
    (split place events).2.filterMap Piece.bracket? =
      outputBrackets place.level (events.flatMap Event.brackets) := by
  induction events generalizing place with
  | nil => rfl
  | cons event events ih =>
    cases event with
    | startTag source attributes =>
      simp [split, characterData?, markup, Event.brackets, outputBrackets, ih,
        filterMap_bracket?_startPieces, Bracket.levelAfter, Place.enter]
    | emptyTag source attributes =>
      simp [split, characterData?, markup, Event.brackets, outputBrackets, ih,
        filterMap_bracket?_startPieces, filterMap_bracket?_endPieces, Bracket.levelAfter,
        Place.enter, Place.leave]
    | endTag source =>
      simp [split, characterData?, markup, Event.brackets, outputBrackets, ih,
        filterMap_bracket?_endPieces, Bracket.levelAfter, Place.leave]
    | directive written =>
      simp only [split, characterData?, markup, Event.brackets, List.cons_append,
        List.flatMap_cons, List.nil_append]
      rw [List.filterMap_cons_none rfl, List.filterMap_append, filterMap_bracket?_textPieces, ih]
      rfl
    | _ => simpa [split, characterData?, Event.brackets] using ih place

theorem filterMap_bracket?_pieces (events : List Event) :
    (pieces events).filterMap Piece.bracket? =
      outputBrackets none (events.flatMap Event.brackets) := by
  simp [pieces, filterMap_bracket?_split]

/-- Sections alone are not written. -/
theorem outputName?_eq_none_iff {level : Option SectionLevel} {source : Text} :
    outputName? level source = none ↔ isSection source = true := by
  unfold outputName? isSection
  cases meaning? source with
  | none => simp
  | some meaning => cases meaning <;> simp

/-- Output names do not depend on the level, those of headings apart. -/
theorem outputName?_of_not_heading {source : Text} (hsource : meaning? source ≠ some .heading)
    (level other : Option SectionLevel) : outputName? level source = outputName? other source := by
  unfold outputName?
  split
  · rfl
  · rfl
  · contradiction
  · rfl

theorem isSection_of_heading {source : Text} (hsource : meaning? source = some .heading) :
    isSection source = false := by
  simp [isSection, hsource]

theorem headingName_injective : Function.Injective headingName := by
  intro level other heq
  obtain _ | level := level <;> obtain _ | other := other
  · rfl
  · simp [headingName] at heq
  · simp [headingName] at heq
  · cases level <;> cases other <;> simp_all [headingName, SectionLevel.digit]

theorem levelAfter_opening_of_not_isSection {source : Text} (hsource : isSection source = false)
    (level : Option SectionLevel) : (Bracket.opening source).levelAfter level = level := by
  unfold isSection at hsource
  simp only [Bracket.levelAfter, Place.enter]
  split <;> simp_all

theorem levelAfter_closing (source : Text) (level : Option SectionLevel) :
    (Bracket.closing source).levelAfter level = if isSection source then none else level := by
  simp only [Bracket.levelAfter, Place.leave]
  cases hsource : isSection source <;> unfold isSection at hsource <;> split <;> simp_all

/-- A nested stretch with a section in it leaves no level in force, since the last bracket of a
    section is its end. Any other nested stretch leaves the level as it was. -/
theorem levelAfter_of_nested {brackets : List Bracket} (h : Nested brackets)
    (level : Option SectionLevel) :
    levelAfter level brackets = if brackets.any Bracket.isSection then none else level := by
  induction h generalizing level with
  | nil => rfl
  | @pair source inside after _ _ ihinside ihafter =>
    have hwhole : levelAfter level (.opening source :: inside ++ .closing source :: after) =
        levelAfter ((Bracket.closing source).levelAfter
          (levelAfter ((Bracket.opening source).levelAfter level) inside)) after := by
      simp [levelAfter]
    rw [hwhole, ihafter, levelAfter_closing, ihinside]
    cases hsource : isSection source with
    | true => simp [Bracket.isSection, hsource]
    | false =>
      rw [levelAfter_opening_of_not_isSection hsource]
      cases hinside : inside.any Bracket.isSection <;>
        cases hafter : after.any Bracket.isSection <;> simp [Bracket.isSection, hsource, hinside, hafter]

/-- No section stands inside a heading that begins while a level is in force. -/
def HeadingsHoldNoSection (level : Option SectionLevel) (brackets : List Bracket) : Prop :=
  ∀ before heading inside after,
    brackets = before ++ .opening heading :: inside ++ .closing heading :: after →
    meaning? heading = some .heading → Balanced inside → levelAfter level before ≠ none →
    inside.any Bracket.isSection = false

/-- The condition passes to every stretch of a document. -/
theorem HeadingsHoldNoSection.of_append {level : Option SectionLevel}
    (before : List Bracket) {brackets : List Bracket} (after : List Bracket)
    (h : HeadingsHoldNoSection level (before ++ brackets ++ after)) :
    HeadingsHoldNoSection (levelAfter level before) brackets := by
  rintro earlier heading inside later rfl hheading hinside hlevel
  refine h (before ++ earlier) heading inside (later ++ after) (by simp) hheading hinside ?_
  rwa [levelAfter_append]

/-- The output of an element: its brackets, each under the name that the level there gives, around
    the output of what stands inside. -/
theorem outputBrackets_pair (level : Option SectionLevel) (source : Text)
    (inside after : List Bracket) :
    let inner := (Bracket.opening source).levelAfter level
    let last := levelAfter inner inside
    outputBrackets level (.opening source :: inside ++ .closing source :: after) =
      ((Bracket.opening source).output? level).toList ++ outputBrackets inner inside ++
        ((Bracket.closing source).output? last).toList ++
        outputBrackets ((Bracket.closing source).levelAfter last) after := by
  simp [outputBrackets, outputBrackets_append]

theorem foldlM_opening_output? (level : Option SectionLevel) (source : Text) (opens : List Text) :
    ((Bracket.opening source).output? level).toList.foldlM opensAfter? opens =
      some ((outputName? level source).toList ++ opens) := by
  simp only [Bracket.output?]
  cases outputName? level source <;> rfl

/-- The end of an element fits its start exactly if both have the same output name. -/
theorem foldlM_closing_output?_iff {level last : Option SectionLevel} {source : Text}
    {opens final : List Text} :
    ((Bracket.closing source).output? last).toList.foldlM opensAfter?
        ((outputName? level source).toList ++ opens) = some final ↔
      outputName? last source = outputName? level source ∧ final = opens := by
  have hnone : outputName? last source = none ↔ outputName? level source = none := by
    rw [outputName?_eq_none_iff, outputName?_eq_none_iff]
  simp only [Bracket.output?]
  cases hlast : outputName? last source with
  | none => simp [hnone.1 hlast, eq_comm]
  | some name =>
    cases hlevel : outputName? level source with
    | none => simp [hnone.2 hlevel] at hlast
    | some other =>
      by_cases heq : name = other <;> simp [opensAfter?, heq, eq_comm]

/-- Whatever the output of a nested stretch closes, it has opened. -/
theorem eq_of_foldlM_outputBrackets {brackets : List Bracket} (h : Nested brackets)
    {level : Option SectionLevel} {opens final : List Text}
    (hrun : (outputBrackets level brackets).foldlM opensAfter? opens = some final) :
    final = opens := by
  induction h generalizing level opens final with
  | nil => exact (Option.some.inj hrun).symm
  | @pair source inside after _ _ ihinside ihafter =>
    rw [outputBrackets_pair] at hrun
    simp only [List.foldlM_append, foldlM_opening_output?, Option.bind_eq_bind,
      Option.bind_some, Option.bind_eq_some_iff] at hrun
    obtain ⟨third, ⟨second, hinside, hclosing⟩, hafter⟩ := hrun
    obtain rfl := ihinside hinside
    obtain ⟨-, rfl⟩ := foldlM_closing_output?_iff.1 hclosing
    exact ihafter hafter

/-- Where the headings keep their level, the output of a nested stretch closes what it opens. -/
theorem foldlM_outputBrackets_of_headings {brackets : List Bracket} (h : Nested brackets)
    {level : Option SectionLevel} (hheadings : HeadingsHoldNoSection level brackets)
    (opens : List Text) :
    (outputBrackets level brackets).foldlM opensAfter? opens = some opens := by
  induction h generalizing level opens with
  | nil => rfl
  | @pair source inside after hinside _ ihinside ihafter =>
    have hinner : HeadingsHoldNoSection ((Bracket.opening source).levelAfter level) inside :=
      .of_append [.opening source] (.closing source :: after) (by simpa using hheadings)
    have houter : HeadingsHoldNoSection ((Bracket.closing source).levelAfter
        (levelAfter ((Bracket.opening source).levelAfter level) inside)) after := by
      have hafter := HeadingsHoldNoSection.of_append (.opening source :: inside ++ [.closing source])
        [] (by simpa using hheadings)
      simpa [levelAfter] using hafter
    have hname : outputName? (levelAfter ((Bracket.opening source).levelAfter level) inside) source =
        outputName? level source := by
      by_cases hsource : meaning? source = some .heading
      · rw [levelAfter_opening_of_not_isSection (isSection_of_heading hsource),
          levelAfter_of_nested hinside]
        cases level with
        | none => simp
        | some level =>
          have hno := hheadings [] source inside after rfl hsource
            (balanced_iff_nested.2 hinside) (by simp [levelAfter])
          simp [hno]
      · exact outputName?_of_not_heading hsource _ _
    rw [outputBrackets_pair]
    simp only [List.foldlM_append, foldlM_opening_output?, Option.bind_eq_bind, Option.bind_some,
      ihinside hinner, foldlM_closing_output?_iff.2 ⟨hname, rfl⟩, ihafter houter]

/-- A section inside a heading that has a level gives the heading two different names. -/
theorem headingsHoldNoSection_of_foldlM {brackets : List Bracket} {level : Option SectionLevel}
    {opens final : List Text}
    (hrun : (outputBrackets level brackets).foldlM opensAfter? opens = some final) :
    HeadingsHoldNoSection level brackets := by
  rintro before heading inside after rfl hheading hinside hlevel
  rw [List.append_assoc, outputBrackets_append, outputBrackets_pair] at hrun
  simp only [List.foldlM_append, foldlM_opening_output?, Option.bind_eq_bind,
    Option.bind_some, Option.bind_eq_some_iff] at hrun
  obtain ⟨first, -, third, ⟨second, hrun, hclosing⟩, -⟩ := hrun
  have hnested := balanced_iff_nested.1 hinside
  obtain rfl := eq_of_foldlM_outputBrackets hnested hrun
  obtain ⟨hname, -⟩ := foldlM_closing_output?_iff.1 hclosing
  rw [levelAfter_opening_of_not_isSection (isSection_of_heading hheading),
    levelAfter_of_nested hnested] at hname
  cases hno : inside.any Bracket.isSection with
  | false => rfl
  | true =>
    simp only [hno, ↓reduceIte, outputName?, hheading, Option.some.injEq] at hname
    exact absurd (headingName_injective hname).symm hlevel

/-- The tags that a document is written with are those of the source in the same order, less the
    sections. -/
theorem forall₂_outputBrackets (level : Option SectionLevel) (brackets : List Bracket) :
    List.Forall₂ (fun source output => ∃ level, source.output? level = some output)
      (brackets.filter fun bracket => !bracket.isSection) (outputBrackets level brackets) := by
  induction brackets generalizing level with
  | nil => exact .nil
  | cons bracket brackets ih =>
    have hnone : bracket.output? level = none ↔ bracket.isSection = true := by
      cases bracket <;> simp [Bracket.output?, Bracket.isSection, outputName?_eq_none_iff]
    simp only [outputBrackets]
    cases houtput : bracket.output? level with
    | none => simpa [hnone.1 houtput] using ih _
    | some output =>
      have hsection : bracket.isSection = false := by
        cases hsection : bracket.isSection with
        | false => rfl
        | true => simp [hnone.2 hsection] at houtput
      simpa [hsection] using ⟨⟨level, houtput⟩, ih _⟩

/-- The brackets of a document, up to its first fault if it has one. -/
def sourceBrackets (input : Text) : List Bracket :=
  (read input.dropByteOrderMark).events.flatMap Event.brackets

/-- The brackets that a document is written with. -/
def writtenBrackets (input : Text) : List Bracket :=
  (pieces (read input.dropByteOrderMark).events).filterMap Piece.bracket?

theorem writtenBrackets_eq (input : Text) :
    writtenBrackets input = outputBrackets none (sourceBrackets input) :=
  filterMap_bracket?_pieces _

/-- The output of a document whose elements are all closed mirrors its nesting, sections left out.
    It is balanced in just the documents that have no section inside a heading with a level: the end
    of such a section takes the level away, and the heading ends under another name than it began
    with. -/
theorem writtenBrackets_balanced_iff (input : Text) (hclosed : Balanced (sourceBrackets input)) :
    (Balanced (writtenBrackets input) ↔ HeadingsHoldNoSection none (sourceBrackets input)) ∧
      List.Forall₂ (fun source output => ∃ level, source.output? level = some output)
        ((sourceBrackets input).filter fun bracket => !bracket.isSection)
        (writtenBrackets input) := by
  rw [writtenBrackets_eq]
  refine ⟨⟨headingsHoldNoSection_of_foldlM, fun hheadings => ?_⟩, forall₂_outputBrackets none _⟩
  exact foldlM_outputBrackets_of_headings (balanced_iff_nested.1 hclosed) hheadings []

theorem writtenBrackets_balanced_iff_sections_outside :
    let input := "<div1><head>a</head><div2/><quote><br/></quote></div1><head/>".toList
    (Balanced (writtenBrackets input) ↔ HeadingsHoldNoSection none (sourceBrackets input)) ∧
      List.Forall₂ (fun source output => ∃ level, source.output? level = some output)
        ((sourceBrackets input).filter fun bracket => !bracket.isSection)
        (writtenBrackets input) :=
  writtenBrackets_balanced_iff _ (by decide +kernel)

/-- A document in order, all of its elements closed, whose heading ends under another name. -/
theorem section_in_heading_unbalances :
    let input := "<div1><head><div2/></head></div1>".toList
    (convert input).failure = none ∧ Balanced (sourceBrackets input) ∧
      (convert input).html = "<h2></h>".toList ∧ ¬ Balanced (writtenBrackets input) := by
  decide +kernel

end PostMarkup.Dialect
