import PostMarkup.Proofs.Html.Rewriting
import PostMarkup.Proofs.Text.LineEnd

namespace PostMarkup.Html

section

variable {σ : Type} (style : Style σ)

/-- A text is raw text where the mark before it begins an element of that kind, and nowhere else. -/
theorem inRawText_placed {place : Place σ} {element? : Option Text} {stretches : List Stretch}
    (hplace : place.inRawText = element?.any fun name => contentModel? name ≠ some .escapableText)
    (hfits : Fits element? (stretches.map Stretch.mark)) :
    ∀ entry ∈ style.placed place stretches, entry.1.inRawText = entry.2.mark.opensRawText := by
  induction stretches generalizing place element? with
  | nil => simp [Style.placed]
  | cons stretch stretches ih =>
    obtain ⟨hlater, hend⟩ := hfits.opens?
    have hnext : (style.after place stretch.mark).inRawText = stretch.mark.opensRawText := by
      cases element? with
      | some name =>
        obtain ⟨attributes, selfClosing, hmark⟩ := Token.exists_of_closes? (hend name rfl)
        rw [hmark]
        rfl
      | none =>
        have hplain : place.inRawText = false := hplace
        cases stretch.mark with
        | startTag name attributes selfClosing =>
          cases selfClosing with
          | true => exact hplain
          | false =>
            cases hmodel : contentModel? name <;>
              simp [Style.after, Style.afterStart, Token.opensRawText, Token.opens?, hmodel, hplain]
        | endTag name => rfl
        | _ => exact hplain
    exact List.forall_mem_cons.2 ⟨hnext, ih hnext hlater⟩

end

/-- A span that is written for a stretch and can be read back in its place: the content of a raw text
    element is left as it is, but for its line ends, or holds no `<`, and no other text does. -/
structure Renders (stretch : Stretch) (span : Span) : Prop where
  formed : span.tag.WellFormed
  opens : span.tag.opens? = stretch.mark.opens?
  closes : span.tag.closes? = stretch.mark.closes?
  text : '<' ∉ span.text ∨
    stretch.mark.opensRawText = true ∧ span.text = normaliseLineEnds stretch.nodes.flatten

theorem Renders.text_of_not_opensRawText {stretch : Stretch} {span : Span} (h : Renders stretch span)
    (hraw : stretch.mark.opensRawText = false) : '<' ∉ span.text := by
  obtain htext | ⟨hopens, -⟩ := h.text
  · exact htext
  · simp [hraw] at hopens

/-- The text of an element without markup can be read back in it. -/
theorem Renders.legible {stretch : Stretch} {span : Span} (h : Renders stretch span) {name : Text}
    (hopens : stretch.mark.opens? = some name) {closed : Bool}
    (hconfined : Confined name stretch.nodes.flatten closed) :
    Legible (some name) span.text closed := by
  obtain htext | ⟨hraw, htext⟩ := h.text
  · exact .text htext
  · obtain ⟨attributes, -, hsome⟩ := Token.exists_of_opens? hopens
    obtain ⟨model, hmodel⟩ := Option.isSome_iff_exists.1 hsome
    have hverbatim : model ≠ .escapableText := by
      simpa [Token.opensRawText, hopens, hmodel] using hraw
    obtain ⟨hencloses, hreturn⟩ := hconfined model hmodel hverbatim
    rw [htext, normaliseLineEnds_of_not_mem hreturn]
    exact .content rfl hmodel hverbatim hencloses

section

variable {ends : Token → Bool} (htextual : ∀ token, token.isTextual = true → ends token = false)
  (htag : ∀ token, token.isTag = true → ends token = true)

include htextual htag

/-- Spans that are written for the stretches of what has been read can be read back. -/
theorem Orderly.readable {tokens : List Token} (h : Orderly tokens) {spans : List Span}
    (hspans : List.Forall₂ Renders (stretches ends tokens).2 spans) {s : Text} (hs : '<' ∉ s) :
    Readable none s spans := by
  have hstart {start : Token} {name : Text} (hopens : start.opens? = some name)
      (tokens : List Token) : stretches ends (start :: tokens) =
        ([], ⟨start, (stretches ends tokens).1⟩ :: (stretches ends tokens).2) := by
    obtain ⟨attributes, rfl, -⟩ := Token.exists_of_opens? hopens
    simp [stretches, htag (.startTag name attributes false) rfl]
  induction h generalizing spans s with
  | nil =>
    cases hspans
    exact .nil (.text hs)
  | @cons token later htoken hopens _ ih =>
    by_cases hend : ends token
    · simp only [stretches, hend, if_true] at hspans
      obtain _ | ⟨hfirst, hlater⟩ := hspans
      have hraw : token.opensRawText = false := by simp [Token.opensRawText, hopens]
      have hnone := hfirst.opens.trans hopens
      refine .cons (.text hs) (by simp) hfirst.formed ?_
      rw [hnone]
      exact ih hlater (hfirst.text_of_not_opensRawText hraw)
    · refine ih ?_ hs
      simp only [stretches, hend, if_false, Bool.false_eq_true] at hspans
      split at hspans <;> exact hspans
  | @element start stop name held later _ hopens hheld _ hconfined hcloses _ ih =>
    obtain ⟨attributes, selfClosing, rfl⟩ := Token.exists_of_closes? hcloses
    obtain ⟨hkept, hflatten⟩ :=
      stretches_append htextual hheld (.endTag name attributes selfClosing :: later)
    simp only [hstart hopens, hkept] at hspans
    simp only [stretches, htag (.endTag name attributes selfClosing) rfl, if_true] at hspans hflatten
    obtain _ | ⟨hfirst, _ | ⟨hsecond, hlater⟩⟩ := hspans
    have hlegible := hfirst.legible hopens (by simpa [hflatten] using hconfined)
    have hnone := hsecond.opens
    have hplain := hsecond.text_of_not_opensRawText rfl
    refine .cons (.text hs) (by simp) hfirst.formed ?_
    rw [hfirst.opens, hopens]
    refine .cons hlegible (fun other hother => ?_) hsecond.formed ?_
    · obtain rfl := Option.some.inj hother
      exact hsecond.closes
    · rw [hnone]
      exact ih hlater hplain
  | @cutOff start name held _ hopens hheld _ hconfined =>
    obtain ⟨hkept, hflatten⟩ := stretches_append htextual hheld []
    rw [List.append_nil] at hkept hflatten
    simp only [hstart hopens, hkept] at hspans
    obtain _ | ⟨hfirst, _ | _⟩ := hspans
    have hlegible := hfirst.legible hopens (by simpa [hflatten, stretches] using hconfined)
    refine .cons (.text hs) (by simp) hfirst.formed ?_
    rw [hfirst.opens, hopens]
    exact .nil hlegible

end

/-- A mark that is written, with the line ends of its values normalised. -/
def Token.normalise : Token → Token
  | .startTag name attributes selfClosing =>
    .startTag name (attributes.map fun entry => ⟨entry.key, normaliseLineEnds entry.value⟩) selfClosing
  | token => token

def Span.normalise (span : Span) : Span := ⟨span.tag.normalise, normaliseLineEnds span.text⟩

theorem normaliseLineEnds_escapeValue (value : Text) :
    normaliseLineEnds (escapeValue value) = escapeValue (normaliseLineEnds value) := by
  refine normaliseLineEnds_flatMap rfl rfl (fun c hcr hlf => ?_) value
  split
  all_goals first
    | exact ⟨by decide, _, _, rfl, by decide⟩
    | exact ⟨by simpa using hcr.symm, c, [], rfl, hlf⟩

theorem normaliseLineEnds_startTag {name : Text} {attributes : List Attribute}
    (htag : WellFormedTag name attributes) (selfClosing : Bool) (s : Text) :
    normaliseLineEnds ((Token.startTag name attributes selfClosing).write ++ s) =
      (Token.startTag name attributes selfClosing).normalise.write ++ normaliseLineEnds s := by
  have hname : '\r' ∉ '<' :: name := by
    simpa using fun hmem => (htag.name.plain _ hmem).2 rfl
  have hclose : '\r' ∉ if selfClosing then "/>".toList else ['>'] := by
    cases selfClosing <;> simp
  have hkeys : ∀ entry ∈ attributes.map escapeAttribute, '\r' ∉ entry.key := by
    intro escaped hescaped hmem
    obtain ⟨entry, hentry, rfl⟩ := List.mem_map.1 hescaped
    exact ((htag.keys entry hentry).plain _ hmem).2 rfl
  have hcommutes (entry : Attribute) :
      normaliseAttribute (escapeAttribute entry) = escapeAttribute (normaliseAttribute entry) :=
    congrArg (Attribute.mk entry.key) (normaliseLineEnds_escapeValue entry.value)
  have hvalues : (attributes.map escapeAttribute).map normaliseAttribute =
      (attributes.map normaliseAttribute).map escapeAttribute := by
    simp only [List.map_map, Function.comp_def, hcommutes]
  simp only [Token.normalise, Token.write, Piece.write, List.append_assoc, flatMap_writeAttribute]
  rw [normaliseLineEnds_append_of_not_mem hname, normaliseLineEnds_flatMap_write hkeys,
    normaliseLineEnds_append_of_not_mem hclose, hvalues]
  rfl

theorem normaliseLineEnds_write {mark : Token} (hmark : mark.WellFormed)
    (hisMark : mark.isMark = true) (s : Text) :
    normaliseLineEnds (mark.write ++ s) = mark.normalise.write ++ normaliseLineEnds s := by
  cases mark with
  | startTag name attributes selfClosing => exact normaliseLineEnds_startTag hmark selfClosing s
  | endTag name attributes selfClosing =>
    have hname : '\r' ∉ name := fun hmem => (hmark.plain _ hmem).2 rfl
    exact normaliseLineEnds_append_of_not_mem (by simp [Token.write, Piece.write, hname]) s
  | comment content =>
    have hcontent := hmark.noReturn
    exact normaliseLineEnds_append_of_not_mem (by simp [Token.write, Piece.write, hcontent]) s
  | _ => contradiction

theorem head?_flatMap_write {spans : List Span} (hmarks : ∀ span ∈ spans, span.tag.isMark = true) :
    ∀ c ∈ (spans.flatMap Span.write).head?, c = '<' := by
  cases spans with
  | nil => simp
  | cons span spans => simp [Span.write, List.head?_append, head?_write (hmarks span (by simp))]

theorem normaliseLineEnds_spans {spans : List Span}
    (hmarks : ∀ span ∈ spans, span.tag.WellFormed ∧ span.tag.isMark = true) (s : Text) :
    normaliseLineEnds (s ++ spans.flatMap Span.write) =
      normaliseLineEnds s ++ (spans.map Span.normalise).flatMap Span.write := by
  induction spans generalizing s with
  | nil => simp
  | cons span spans ih =>
    have hhead := head?_flatMap_write fun span hspan => (hmarks span hspan).2
    obtain ⟨hmark, hmarks⟩ := List.forall_mem_cons.1 hmarks
    have hfeed : ((span :: spans).flatMap Span.write).head? ≠ some '\n' :=
      fun heq => absurd (hhead _ heq) (by decide)
    rw [normaliseLineEnds_append hfeed, List.flatMap_cons, Span.write, List.append_assoc,
      normaliseLineEnds_write hmark.1 hmark.2, ih hmarks, List.map_cons, List.flatMap_cons,
      Span.write, List.append_assoc]
    rfl

/-- Written spans as they are read: without a byte order mark at the head, and with line feeds only. -/
theorem tokenize_spans {spans : List Span}
    (hmarks : ∀ span ∈ spans, span.tag.WellFormed ∧ span.tag.isMark = true) (lead : Text) :
    tokenize (lead ++ spans.flatMap Span.write) =
      tokens (normaliseLineEnds lead.dropByteOrderMark ++
        (spans.map Span.normalise).flatMap Span.write) := by
  have hhead := head?_flatMap_write fun span hspan => (hmarks span hspan).2
  have hmark : (spans.flatMap Span.write).head? ≠ some '\ufeff' :=
    fun heq => absurd (hhead _ heq) (by decide)
  rw [tokenize, Text.dropByteOrderMark_append hmark, normaliseLineEnds_spans hmarks]

theorem normalise_of_holdsReturn {token : Token} (htoken : token.holdsReturn = false) :
    token.normalise = token := by
  cases token with
  | startTag name attributes selfClosing =>
    simp only [Token.holdsReturn, List.any_eq_false, List.contains_iff_mem] at htoken
    have hkept : attributes.map (fun entry => ⟨entry.key, normaliseLineEnds entry.value⟩) =
        attributes.map id :=
      List.map_congr_left fun entry hentry => by
        rw [normaliseLineEnds_of_not_mem (htoken entry hentry)]
        rfl
    rw [Token.normalise, hkept, List.map_id]
  | _ => rfl

theorem opens?_normalise (token : Token) : token.normalise.opens? = token.opens? := by
  cases token with
  | startTag name attributes selfClosing => cases selfClosing <;> rfl
  | _ => rfl

theorem opensRawText_normalise (token : Token) : token.normalise.opensRawText = token.opensRawText :=
  congrArg (Option.any _) (opens?_normalise token)

/-- Escaped text is read as it was, or where nothing is decoded as it is written. -/
theorem text_read_normalise {span : Span} {s : Text} (htext : span.text = escapeText s)
    (hnull : '\x00' ∉ s) (hreturn : '\r' ∉ span.text) :
    span.normalise.read.text = if span.tag.opensRawText then span.text else s := by
  have hwritten : '\x00' ∉ span.text := htext ▸ not_mem_escapeText (by decide) hnull
  have hdecoded : decodeText span.text = s := htext ▸ decodeText_escapeText s
  rw [Span.read, Span.normalise, normaliseLineEnds_of_not_mem hreturn, readText_opens? _ hwritten,
    opensRawText_normalise, hdecoded]

theorem null_not_mem_normaliseLineEnds {s : Text} (hs : '\x00' ∉ s) : '\x00' ∉ normaliseLineEnds s :=
  fun hmem => hs (mem_of_mem_normaliseLineEnds (by decide) hmem)

theorem wellFormed_normalise {token : Token} (h : token.WellFormed) : token.normalise.WellFormed := by
  cases token with
  | startTag name attributes selfClosing =>
    obtain ⟨hname, hkeys, hvalues, hdistinct⟩ := h
    refine ⟨hname, ?_, ?_, ?_⟩
    · simpa using hkeys
    · simpa using fun entry hentry => null_not_mem_normaliseLineEnds (hvalues entry hentry)
    · simpa [Function.comp_def] using hdistinct
  | _ => exact h

namespace Style

variable {σ : Type} {style : Style σ}

/-- What a style has to keep to, so that what it writes can be read back. -/
structure Rereadable (style : Style σ) : Prop where
  escape : style.escape [] = []
  adjust : ∀ name attributes, WellFormedTag name attributes →
    WellFormedTag name (style.adjust name attributes)
  text : ∀ place : Place σ, (∀ s, '<' ∉ style.writeText place s) ∨
    place.inRawText = true ∧ ∀ s, style.writeText place s = s

theorem opens?_adjusted (style : Style σ) (token : Token) :
    (style.adjusted token).opens? = token.opens? := by
  cases token with
  | startTag name attributes selfClosing => cases selfClosing <;> rfl
  | _ => rfl

theorem closes?_normalise_adjusted (style : Style σ) (token : Token) :
    (style.adjusted token).normalise.closes? = token.closes? := by
  cases token <;> rfl

theorem isMark_adjusted (style : Style σ) (token : Token) :
    (style.adjusted token).isMark = token.isMark := by
  cases token <;> rfl

theorem Rereadable.wellFormed (h : style.Rereadable) {token : Token} (htoken : token.WellFormed) :
    (style.adjusted token).WellFormed := by
  cases token with
  | startTag name attributes selfClosing => exact h.adjust name attributes htoken
  | _ => exact htoken

theorem Rereadable.writeNodes (h : style.Rereadable) (place : Place σ) :
    (∀ nodes, '<' ∉ style.writeNodes place nodes) ∨
      place.inRawText = true ∧ ∀ nodes, style.writeNodes place nodes = nodes.flatten := by
  obtain htext | ⟨hraw, htext⟩ := h.text place
  · refine .inl fun nodes hmem => ?_
    obtain ⟨node, -, hmem⟩ := List.mem_flatMap.1 hmem
    exact htext node hmem
  · refine .inr ⟨hraw, fun nodes => ?_⟩
    have heq : style.writeText place = id := funext htext
    rw [Style.writeNodes, heq, List.flatMap_id]

theorem keeps_of_isTag (style : Style σ) {token : Token} (htoken : token.isTag = true) :
    style.keeps token = true := by
  unfold keeps
  rw [htoken, Token.isMark_of_isTag htoken, ite_self]

theorem keeps_normalise_adjusted (style : Style σ) (token : Token) :
    style.keeps (style.adjusted token).normalise = style.keeps token := by
  cases token <;> rfl

theorem bare_normalise_adjusted (style : Style σ) (token : Token) :
    (style.adjusted token).normalise.bare = (style.adjusted token).normalise := by
  cases token <;> rfl

/-- A mark is read back as it was adjusted, if none of its values can have changed on the way. -/
theorem tag_read_span (style : Style σ) {entry : Place σ × Stretch}
    (hadjusted : (style.adjusted entry.2.mark).holdsReturn = false) :
    (style.span entry).normalise.read.tag = style.adjusted entry.2.mark :=
  (style.bare_normalise_adjusted _).trans (normalise_of_holdsReturn hadjusted)

/-- The stretches of what has been read, each with its place. -/
def source (style : Style σ) (input : Text) : List (Place σ × Stretch) :=
  style.placed style.start (stretches style.keeps (tokenize input)).2

section

variable {input : Text} {entry : Place σ × Stretch} (hentry : entry ∈ style.source input)

include hentry

theorem snd_mem_of_mem_source : entry.2 ∈ (stretches style.keeps (tokenize input)).2 := by
  have hmem := List.mem_map_of_mem (f := Prod.snd) hentry
  rwa [source, map_snd_placed] at hmem

theorem mark_mem_of_mem_source :
    entry.2.mark ∈ tokenize input ∧ style.keeps entry.2.mark = true := by
  have hmem := List.mem_map_of_mem (f := Stretch.mark) (snd_mem_of_mem_source hentry)
  rwa [map_mark_stretches, List.mem_filter] at hmem

/-- In what has been read raw text stands where a raw text element has just begun. -/
theorem inRawText_of_mem_source : entry.1.inRawText = entry.2.mark.opensRawText := by
  have hfits := (orderly_tokenize input).fits_filter (fun _ => style.keeps_of_isTextual)
    fun _ => style.keeps_of_isTag
  rw [← map_mark_stretches] at hfits
  exact inRawText_placed style rfl hfits entry hentry

theorem Rereadable.renders (h : style.Rereadable) : Renders entry.2 (style.span entry).normalise := by
  have hmark := (orderly_tokenize input).wellFormed _ (mark_mem_of_mem_source hentry).1
  refine ⟨wellFormed_normalise (h.wellFormed hmark), ?_, ?_, ?_⟩
  · exact (opens?_normalise _).trans (style.opens?_adjusted _)
  · exact style.closes?_normalise_adjusted _
  · obtain hplain | ⟨hraw, htext⟩ := h.writeNodes entry.1
    · exact .inl fun hmem => hplain entry.2.nodes (mem_of_mem_normaliseLineEnds (by decide) hmem)
    · refine .inr ⟨(inRawText_of_mem_source hentry).symm.trans hraw, ?_⟩
      simp only [Span.normalise, Style.span, htext]

end

/-- What a style writes is read back span by span. -/
theorem Rereadable.spansAt_tokenize (h : style.Rereadable) (input : Text) :
    spansAt style.keeps (tokenize (style.write (tokenize input))) =
      (readText none (normaliseLineEnds (style.writeNodes style.start
          (stretches style.keeps (tokenize input)).1).dropByteOrderMark),
        (style.source input).map fun entry => (style.span entry).normalise.read) := by
  have hlead : '<' ∉ normaliseLineEnds (style.writeNodes style.start
      (stretches style.keeps (tokenize input)).1).dropByteOrderMark := by
    intro hmem
    obtain hplain | ⟨hstart, -⟩ := h.writeNodes style.start
    · exact hplain _ (Text.dropByteOrderMark_subset _ (mem_of_mem_normaliseLineEnds (by decide) hmem))
    · contradiction
  have hspans : List.Forall₂ Renders (stretches style.keeps (tokenize input)).2
      ((style.source input).map fun entry => (style.span entry).normalise) := by
    rw [← style.map_snd_placed style.start (stretches style.keeps (tokenize input)).2,
      List.forall₂_map_left_iff, List.forall₂_map_right_iff]
    exact List.forall₂_same.2 fun entry hentry => h.renders hentry
  have hwritten : ∀ span ∈ (style.source input).map style.span,
      span.tag.WellFormed ∧ span.tag.isMark = true := by
    intro span hspan
    obtain ⟨entry, hentry, rfl⟩ := List.mem_map.1 hspan
    obtain ⟨hmem, hkept⟩ := mark_mem_of_mem_source hentry
    exact ⟨h.wellFormed ((orderly_tokenize input).wellFormed _ hmem),
      (isMark_adjusted style _).trans (style.isMark_of_keeps hkept)⟩
  have hmarks : ∀ span ∈ (style.source input).map fun entry => (style.span entry).normalise,
      span.tag.isMark = true ∧ style.keeps span.tag.bare = true := by
    intro span hspan
    obtain ⟨entry, hentry, rfl⟩ := List.mem_map.1 hspan
    have hkept := (style.keeps_normalise_adjusted _).trans (mark_mem_of_mem_source hentry).2
    have hbare := style.bare_normalise_adjusted entry.2.mark
    exact ⟨style.isMark_of_keeps hkept, (congrArg style.keeps hbare).trans hkept⟩
  have hreadable := (orderly_tokenize input).readable (fun _ => style.keeps_of_isTextual)
    (fun _ => style.keeps_of_isTag) hspans hlead
  have hread := spansAt_tokensInside (fun _ => style.keeps_of_isTextual) (by simp) hmarks hreadable
  rw [Style.write_eq h.escape, ← source, tokenize_spans hwritten, List.map_map]
  simpa [tokensInside, Function.comp_def] using hread

/-- The text that is written before the first mark. -/
def lead (style : Style σ) (input : Text) : Text :=
  style.writeNodes style.start (stretches style.keeps (tokenize input)).1

/-- The marks as they are written, each with the text that is written after it. -/
def spans (style : Style σ) (input : Text) : List Span := (style.source input).map style.span

/-- What is written is read again mark by mark. -/
theorem Rereadable.snd_spansAt_tokenize (h : style.Rereadable) (input : Text) :
    (spansAt style.keeps (tokenize (style.write (tokenize input)))).2 =
      (style.spans input).map fun span => span.normalise.read := by
  rw [h.spansAt_tokenize, spans, List.map_map]
  rfl

end Style

end PostMarkup.Html
