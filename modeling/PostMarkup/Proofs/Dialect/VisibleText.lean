import PostMarkup.Proofs.Dialect.OrdinaryMarkup
import PostMarkup.Proofs.Dialect.OutputNesting

namespace PostMarkup.Dialect

open Reference (InOrder)

/-- What the tags before a place amount to. -/
structure Enclosure where
  /-- The elements that are open, innermost first. -/
  opens : List Text := []
  /-- How many elements are taken to be open where visible text is read. -/
  count : Nat := 0
deriving DecidableEq

namespace Enclosure

/-- A start tag raises the count unless its element is void; an end tag of any element lowers it. -/
def after (enclosure : Enclosure) (bracket : Bracket) : Enclosure where
  opens := (opensAfter? enclosure.opens bracket).getD enclosure.opens
  count :=
    match bracket with
    | .opening name => if name ∈ voidElements then enclosure.count else enclosure.count + 1
    | .closing _ => enclosure.count - 1

/-- The elements that are open and can have content. -/
def elements (enclosure : Enclosure) : List Text :=
  enclosure.opens.filter fun name => name ∉ voidElements

/-- The depth that visible text is read at. -/
def depth (enclosure : Enclosure) : Html.Depth := { elements := enclosure.count }

/-- A tag never makes the count exceed the open elements. -/
theorem count_after_le {enclosure : Enclosure} (h : enclosure.count ≤ enclosure.elements.length)
    (bracket : Bracket) :
    (enclosure.after bracket).count ≤ (enclosure.after bracket).elements.length := by
  cases bracket with
  | opening name =>
    by_cases hvoid : name ∈ voidElements
    · simpa [after, elements, opensAfter?, hvoid] using h
    · simpa [after, elements, opensAfter?, hvoid] using h
  | closing name =>
    obtain ⟨opens, count⟩ := enclosure
    simp only [after, elements, opensAfter?] at h ⊢
    cases opens with
    | nil =>
      simp only [Option.getD_none]
      omega
    | cons innermost outer =>
      by_cases hname : name = innermost
      · have hlength : ((innermost :: outer).filter fun name => name ∉ voidElements).length ≤
            (outer.filter fun name => name ∉ voidElements).length + 1 := by
          rw [List.filter_cons]
          split
          · rfl
          · omega
        simp only [hname, if_true, Option.getD_some]
        omega
      · simp only [hname, if_false, Option.getD_none]
        omega

end Enclosure

/-- The text between two tags, and the elements it stands in. -/
structure Run where
  enclosure : Enclosure
  written : Text
deriving DecidableEq

namespace Run

/-- The run stands in an element that can have content. -/
def isInside (run : Run) : Bool := run.enclosure.elements ≠ []

/-- The count shows the run. -/
def isCounted (run : Run) : Bool := 0 < run.enclosure.count

/-- The run as it is read: decoded and trimmed. A blank run gives nothing. -/
def chunk (run : Run) : List Text := Html.trimmedChunk (Html.decodeText run.written)

end Run

/-- The text before the first tag, and the run after each tag. -/
def runsAfter (enclosure : Enclosure) : List Piece → Text × List Run
  | [] => ([], [])
  | piece :: pieces =>
    match piece.bracket? with
    | some bracket =>
      let next := enclosure.after bracket
      let later := runsAfter next pieces
      ([], ⟨next, later.1⟩ :: later.2)
    | none =>
      let later := runsAfter enclosure pieces
      (piece.write ++ later.1, later.2)

/-- The runs of text that a document is written with. -/
def textRuns (input : Text) : List Run :=
  let later := runsAfter {} (pieces (read input.dropByteOrderMark).events)
  ⟨{}, later.1⟩ :: later.2

/-- What the runs of some kind give. -/
def chunksOf (kind : Run → Bool) (runs : List Run) : List Text :=
  (runs.filter kind).flatMap Run.chunk

theorem chunksOf_cons (kind : Run → Bool) (run : Run) (runs : List Run) :
    chunksOf kind (run :: runs) = (if kind run then run.chunk else []) ++ chunksOf kind runs := by
  unfold chunksOf
  cases hkind : kind run <;> simp [hkind]

section

variable {kind other : Run → Bool} {runs : List Run}
  (hother : ∀ run ∈ runs, kind run = true → other run = true)

include hother

theorem chunksOf_sublist : (chunksOf kind runs).Sublist (chunksOf other runs) := by
  induction runs with
  | nil => exact List.Sublist.refl _
  | cons run runs ih =>
    obtain ⟨hrun, hruns⟩ := List.forall_mem_cons.1 hother
    rw [chunksOf_cons, chunksOf_cons]
    refine List.Sublist.append ?_ (ih hruns)
    cases hkind : kind run with
    | true => simp [hrun hkind]
    | false => simp

/-- Runs of one kind give all that runs of the other kind give, unless one that is not blank is left
    out. -/
theorem chunksOf_eq_iff : chunksOf kind runs = chunksOf other runs ↔
    ∀ run ∈ runs, other run = true → run.chunk ≠ [] → kind run = true := by
  induction runs with
  | nil => simp [chunksOf]
  | cons run runs ih =>
    obtain ⟨hrun, hruns⟩ := List.forall_mem_cons.1 hother
    rw [chunksOf_cons, chunksOf_cons, List.forall_mem_cons]
    by_cases hleft : kind run = false ∧ other run = true ∧ run.chunk ≠ []
    · obtain ⟨hkind, hshown, hchunk⟩ := hleft
      refine iff_of_false (fun heq => ?_) (by simp [hkind, hshown, hchunk])
      have hlength := congrArg List.length heq
      have hle := (chunksOf_sublist hruns).length_le
      have hpositive := List.length_pos_iff.2 hchunk
      simp only [hkind, hshown, Bool.false_eq_true, if_false, if_true, List.nil_append,
        List.length_append] at hlength
      omega
    · have hhead : other run = true → run.chunk ≠ [] → kind run = true := by
        intro hshown hchunk
        by_contra hkind
        exact hleft ⟨by simpa using hkind, hshown, hchunk⟩
      have hsame : (if kind run then run.chunk else []) = if other run then run.chunk else [] := by
        by_cases hchunk : run.chunk = []
        · simp [hchunk]
        · have hiff : kind run = true ↔ other run = true := ⟨hrun, fun h => hhead h hchunk⟩
          simp only [hiff]
      rw [hsame, List.append_cancel_left_eq, ih hruns]
      exact ⟨fun h => ⟨hhead, h⟩, fun h => h.2⟩

end

theorem nil_not_mem_trimmedChunk (s : Text) : [] ∉ Html.trimmedChunk s := by
  unfold Html.trimmedChunk
  split
  · simp
  · next hvisible => simpa using fun heq => hvisible heq

theorem nil_not_mem_chunksOf (kind : Run → Bool) (runs : List Run) : [] ∉ chunksOf kind runs := by
  intro hmem
  obtain ⟨run, -, hchunk⟩ := List.mem_flatMap.1 hmem
  exact nil_not_mem_trimmedChunk _ hchunk

theorem isInside_of_isCounted_runsAfter {enclosure : Enclosure}
    (h : enclosure.count ≤ enclosure.elements.length) (pieces : List Piece) :
    ∀ run ∈ (runsAfter enclosure pieces).2, run.isCounted = true → run.isInside = true := by
  induction pieces generalizing enclosure with
  | nil => simp [runsAfter]
  | cons piece pieces ih =>
    rw [runsAfter]
    split
    · next bracket hbracket =>
      have hnext := Enclosure.count_after_le h bracket
      refine List.forall_mem_cons.2 ⟨fun hcounted => ?_, ih hnext⟩
      have hpositive := Nat.lt_of_lt_of_le (of_decide_eq_true hcounted) hnext
      exact decide_eq_true (List.length_pos_iff.1 hpositive)
    · exact ih h

/-- Text outside every element is not counted. -/
theorem isInside_of_isCounted (input : Text) :
    ∀ run ∈ textRuns input, run.isCounted = true → run.isInside = true := by
  refine List.forall_mem_cons.2 ⟨fun hcounted => ?_, ?_⟩
  · exact absurd (of_decide_eq_true hcounted) (Nat.lt_irrefl 0)
  · exact isInside_of_isCounted_runsAfter (by simp) _

theorem hides_of_contentModel? {name : Text} (hmodel : Html.contentModel? name = none) :
    Html.Depth.hides name = false := by
  rw [Bool.eq_false_iff]
  intro hhides
  simp only [Html.Depth.hides, Bool.or_eq_true, decide_eq_true_eq] at hhides
  obtain rfl | rfl := hhides
  · contradiction
  · contradiction

theorem tokens_startPiece {name : Text} {attributes : List Attribute} (hname : IsOrdinaryName name)
    (hattributes : ∀ entry ∈ attributes, Html.Quotable entry) (s : Text) :
    ∃ entries, Html.tokens (normaliseLineEnds ((Piece.startTag name attributes).write ++ s)) =
      .startTag name entries false :: Html.tokens (normaliseLineEnds s) := by
  obtain ⟨entries, hread⟩ :=
    Html.exists_tokens_normalise_tagSource hname.1.isTagName hattributes false s
  refine ⟨entries, ?_⟩
  simpa [Html.tokensInside, hname.2, Html.tagSource, Html.tagClose, Piece.write] using hread

theorem tokens_endPiece {name : Text} (hname : IsOrdinaryName name) (s : Text) :
    Html.tokens (normaliseLineEnds ((Piece.endTag name).write ++ s)) =
      .endTag name [] false :: Html.tokens (normaliseLineEnds s) := by
  have hwritten : '\r' ∉ (Piece.endTag name).write := by
    simpa [Piece.write] using fun hmem => (hname.1.plain _ hmem).2 rfl
  rw [normaliseLineEnds_append_of_not_mem hwritten]
  exact Html.tokens_endTag hname.1.isTagName _

theorem shows_depth (enclosure : Enclosure) :
    enclosure.depth.shows = true ↔ 0 < enclosure.count := by
  simp only [Enclosure.depth, Html.Depth.shows, Bool.not_false, Bool.and_true]
  exact decide_eq_true_iff

theorem depth_after_opening {name : Text} (hname : IsOrdinaryName name) (enclosure : Enclosure)
    (entries : List Attribute) :
    enclosure.depth.after (.startTag name entries false) =
      (enclosure.after (.opening name)).depth := by
  simp [Html.Depth.after, Html.Depth.afterStart, Enclosure.depth, Enclosure.after,
    hides_of_contentModel? hname.2]

theorem depth_after_closing (enclosure : Enclosure) (name : Text) :
    enclosure.depth.after (.endTag name [] false) = (enclosure.after (.closing name)).depth := rfl

theorem runsAfter_of_bracket? {piece : Piece} {bracket : Bracket}
    (hbracket : piece.bracket? = some bracket) (enclosure : Enclosure) (pieces : List Piece) :
    runsAfter enclosure (piece :: pieces) =
      ([], ⟨enclosure.after bracket, (runsAfter (enclosure.after bracket) pieces).1⟩ ::
        (runsAfter (enclosure.after bracket) pieces).2) := by
  rw [runsAfter, hbracket]

/-- A run whose place is deep enough is shown. -/
theorem chunksOf_isCounted_cons (run : Run) (runs : List Run) :
    chunksOf Run.isCounted (run :: runs) =
      Html.trimmedChunk (if 0 < run.enclosure.count then Html.decodeText run.written else []) ++
        chunksOf Run.isCounted runs := by
  rw [chunksOf_cons]
  by_cases hcount : 0 < run.enclosure.count
  · simp [Run.isCounted, hcount, Run.chunk]
  · simp only [Run.isCounted, hcount, decide_false, Bool.false_eq_true, if_false]
    rfl

/-- Reading for visible text finds the counted runs again. -/
theorem splitChunks_write {pieces : List Piece} (hpieces : ∀ piece ∈ pieces, piece.IsOrdinary)
    (enclosure : Enclosure) :
    Html.splitChunks enclosure.depth
        (Html.tokens (normaliseLineEnds (pieces.flatMap Piece.write))) =
      (if 0 < enclosure.count then Html.decodeText (runsAfter enclosure pieces).1 else [],
        chunksOf Run.isCounted (runsAfter enclosure pieces).2) := by
  -- Each piece is read by itself: a tag moves the depth as it moves the count, and text in order
  -- joins the run that is open, so two stretches of text in a row make one run on both sides.
  induction pieces generalizing enclosure with
  | nil =>
    have hread : Html.tokens (normaliseLineEnds []) = [] := Html.tokens_nil
    simp [hread, Html.splitChunks, runsAfter, Html.decodeText_nil, chunksOf]
  | cons piece pieces ih =>
    obtain ⟨hpiece, hlater⟩ := List.forall_mem_cons.1 hpieces
    rw [List.flatMap_cons]
    cases piece with
    | startTag name attributes =>
      obtain ⟨entries, hread⟩ := tokens_startPiece hpiece.1 hpiece.2 (pieces.flatMap Piece.write)
      rw [hread, Html.splitChunks_of_ne_text (by simp), depth_after_opening hpiece.1, ih hlater,
        runsAfter_of_bracket? rfl, chunksOf_isCounted_cons, Html.decodeText_nil, ite_self]
    | endTag name =>
      rw [tokens_endPiece hpiece, Html.splitChunks_of_ne_text (by simp), depth_after_closing, ih hlater,
        runsAfter_of_bracket? rfl, chunksOf_isCounted_cons, Html.decodeText_nil, ite_self]
    | text written =>
      have hwritten : InOrder written := hpiece
      rw [Piece.write, normaliseLineEnds_append_of_not_mem hwritten.not_mem.2,
        Html.splitChunks_tokens_append hwritten, ih hlater]
      by_cases hcount : 0 < enclosure.count
      · simp [runsAfter, Piece.bracket?, Piece.write, shows_depth, hcount,
          Html.decodeText_append hwritten]
      · simp [runsAfter, Piece.bracket?, shows_depth, hcount]
    | directive written => contradiction

/-- The visible text of an ordinary document is that of the counted runs. -/
theorem plainText_convert {input : Text} (hnull : '\x00' ∉ input) (hreturn : '\r' ∉ input)
    (hordinary : ∀ event ∈ (read input.dropByteOrderMark).events, event.IsOrdinary) :
    Html.plainText (convert input).html =
      [' '].intercalate (chunksOf Run.isCounted (textRuns input)) := by
  have hsubset := Text.dropByteOrderMark_subset input
  have hpieces := isOrdinary_pieces (fun hmem => hnull (hsubset hmem))
    (fun hmem => hreturn (hsubset hmem)) hordinary
  have hchunks : Html.chunks (Html.tokens (normaliseLineEnds (convert input).html)) =
      chunksOf Run.isCounted (textRuns input) := by
    have hsplit := splitChunks_write hpieces {}
    rw [textRuns, chunksOf_isCounted_cons, Html.chunks]
    exact congrArg (fun split => Html.trimmedChunk split.1 ++ split.2) hsplit
  rw [Html.plainText, Html.chunks_tokenize, hchunks]

/-- In an ordinary document a run is shown exactly if it is counted, and no run outside every element
    is. So the visible text is that of all elements exactly if the count is above zero wherever a run
    in an element is not blank. -/
theorem plainText_convert_eq_iff {input : Text} (hnull : '\x00' ∉ input) (hreturn : '\r' ∉ input)
    (hordinary : ∀ event ∈ (read input.dropByteOrderMark).events, event.IsOrdinary) :
    (∀ run ∈ textRuns input, run.isCounted = true → run.isInside = true) ∧
      Html.plainText (convert input).html =
        [' '].intercalate (chunksOf Run.isCounted (textRuns input)) ∧
      (Html.plainText (convert input).html =
          [' '].intercalate (chunksOf Run.isInside (textRuns input)) ↔
        ∀ run ∈ textRuns input, run.isInside = true → run.chunk ≠ [] → run.isCounted = true) := by
  have hinside := isInside_of_isCounted input
  have hshown := plainText_convert hnull hreturn hordinary
  refine ⟨hinside, hshown, ?_⟩
  rw [hshown, ← chunksOf_eq_iff hinside]
  constructor
  · intro heq
    exact Html.eq_of_intercalate_space_eq (chunksOf_sublist hinside)
      (nil_not_mem_chunksOf Run.isInside _) heq
  · intro heq
    rw [heq]

theorem plainText_convert_eq_iff_void_at_end :
    let input : Text := "a<p>b &amp; c<br/></p>d<quote> <p>e -- f</p></quote>".toList
    '\x00' ∉ input ∧ '\r' ∉ input ∧
      (∀ event ∈ (read input.dropByteOrderMark).events, event.IsOrdinary) ∧
      (∀ run ∈ textRuns input, run.isInside = true → run.chunk ≠ [] → run.isCounted = true) ∧
      Html.plainText (convert input).html =
        [' '].intercalate (chunksOf Run.isInside (textRuns input)) ∧
      Html.plainText (convert input).html = "b & c e\xa0— f".toList := by
  intro input
  have hnull : '\x00' ∉ input := by decide
  have hreturn : '\r' ∉ input := by decide
  have hordinary : ∀ event ∈ (read input.dropByteOrderMark).events, event.IsOrdinary := by
    decide +kernel
  have hcounted : ∀ run ∈ textRuns input,
      run.isInside = true → run.chunk ≠ [] → run.isCounted = true := by
    decide +kernel
  have hagrees := (plainText_convert_eq_iff hnull hreturn hordinary).2.2.2 hcounted
  refine ⟨hnull, hreturn, hordinary, hcounted, hagrees, ?_⟩
  rw [hagrees]
  decide +kernel

/-- The end tag of a void element lowers the count that its start tag has not raised. -/
theorem text_after_void_element_is_lost :
    let input : Text := "<p>a<br/>b</p>".toList
    (convert input).failure = none ∧ Balanced (sourceBrackets input) ∧
      '\x00' ∉ input ∧ '\r' ∉ input ∧
      (∀ event ∈ (read input.dropByteOrderMark).events, event.IsOrdinary) ∧
      (convert input).html = "<p>a<br></br>b</p>".toList ∧
      [' '].intercalate (chunksOf Run.isInside (textRuns input)) = "a b".toList ∧
      Html.plainText (convert input).html = "a".toList := by
  decide +kernel

/-- A tag that closes the innermost element, or opens one that is not void, keeps the count right. -/
theorem count_after_eq {enclosure : Enclosure} {bracket : Bracket} {inner : List Text}
    (hcount : enclosure.count = enclosure.opens.length)
    (hinner : opensAfter? enclosure.opens bracket = some inner)
    (hvoid : ∀ name, bracket = .opening name → name ∉ voidElements) :
    (enclosure.after bracket).opens = inner ∧ (enclosure.after bracket).count = inner.length := by
  refine ⟨by simp [Enclosure.after, hinner], ?_⟩
  cases bracket with
  | opening name =>
    obtain rfl := Option.some.inj hinner
    simp [Enclosure.after, hvoid name rfl, hcount]
  | closing name =>
    obtain ⟨_ | ⟨innermost, outer⟩, count⟩ := enclosure
    · contradiction
    · simp only [opensAfter?] at hinner
      split at hinner
      · obtain rfl := Option.some.inj hinner
        have hone : count = outer.length + 1 := hcount
        simp only [Enclosure.after]
        omega
      · contradiction

/-- Where every tag closes the innermost element and no element is void, the count is right. -/
theorem isCounted_of_isInside {pieces : List Piece} {enclosure : Enclosure} {final : List Text}
    (hcount : enclosure.count = enclosure.opens.length)
    (hnested : (pieces.filterMap Piece.bracket?).foldlM opensAfter? enclosure.opens = some final)
    (hvoid : ∀ name, .opening name ∈ pieces.filterMap Piece.bracket? → name ∉ voidElements) :
    ∀ run ∈ (runsAfter enclosure pieces).2, run.isInside = true → run.isCounted = true := by
  induction pieces generalizing enclosure with
  | nil => simp [runsAfter]
  | cons piece pieces ih =>
    cases hbracket : piece.bracket? with
    | none =>
      rw [List.filterMap_cons_none hbracket] at hnested hvoid
      rw [runsAfter, hbracket]
      exact ih hcount hnested hvoid
    | some bracket =>
      rw [List.filterMap_cons_some hbracket] at hnested hvoid
      rw [List.foldlM_cons] at hnested
      obtain ⟨inner, hinner, hnested⟩ := Option.bind_eq_some_iff.1 hnested
      obtain ⟨hopens, hnext⟩ := count_after_eq hcount hinner fun name heq =>
        hvoid name (by simp [heq])
      rw [runsAfter_of_bracket? hbracket]
      refine List.forall_mem_cons.2 ⟨fun hinside => ?_, ?_⟩
      · have hsome : inner ≠ [] := by
          intro hnone
          simp [Run.isInside, Enclosure.elements, hopens, hnone] at hinside
        simpa [Run.isCounted, hnext] using List.length_pos_iff.2 hsome
      · apply ih
        · rw [hnext, hopens]
        · rwa [hopens]
        · intro name hname
          exact hvoid name (by simp [hname])

/-- Without void elements the visible text of a document is that of all its elements. -/
theorem plainText_convert_of_no_void {input : Text} (hnull : '\x00' ∉ input)
    (hreturn : '\r' ∉ input)
    (hordinary : ∀ event ∈ (read input.dropByteOrderMark).events, event.IsOrdinary)
    (hclosed : Balanced (writtenBrackets input))
    (hvoid : ∀ name, .opening name ∈ writtenBrackets input → name ∉ voidElements) :
    Html.plainText (convert input).html =
      [' '].intercalate (chunksOf Run.isInside (textRuns input)) := by
  have hcounted : ∀ run ∈ textRuns input, run.isInside = true → run.isCounted = true := by
    refine List.forall_mem_cons.2 ⟨fun hinside => ?_, isCounted_of_isInside rfl hclosed hvoid⟩
    simp [Run.isInside, Enclosure.elements] at hinside
  rw [plainText_convert hnull hreturn hordinary,
    (chunksOf_eq_iff (isInside_of_isCounted input)).2 fun run hrun hinside _ =>
      hcounted run hrun hinside]

end PostMarkup.Dialect
