import PostMarkup.Proofs.Attribute
import PostMarkup.Proofs.Html.Rereading
import PostMarkup.Proofs.Typography.Alphabet

namespace PostMarkup.Html

/-- A tag of a table gets the table class in place of the first class that it has, or after its
    attributes; other tokens stay. -/
def Token.withTableClass : Token → Token
  | .startTag name attributes selfClosing =>
    .startTag name
      (if name = "table".toList then Attribute.set "class".toList tableClass attributes
       else attributes) selfClosing
  | token => token

/-- The open elements after a tag, innermost first. -/
def openElements (opens : List Text) : Token → List Text
  | .startTag name _ selfClosing =>
    if selfClosing then opens else if name ∈ voidElements then opens else name :: opens
  | .endTag name _ _ => closeNearest name opens
  | _ => opens

section

variable {σ : Type} {style : Style σ} (hverbatim : style.verbatimRawText = true)

include hverbatim

/-- Text that is not typographed is escaped, or copied where nothing is decoded. -/
theorem writeText_of_verbatim {place : Place σ}
    (hplain : style.policy.typographs place.policyState = false) (s : Text) :
    style.writeText place s = if place.inRawText then s else escapeText s := by
  simp [Style.writeText, hverbatim, hplain]

theorem writeNodes_of_verbatim {place : Place σ}
    (hplain : style.policy.typographs place.policyState = false) (nodes : List Text) :
    style.writeNodes place nodes =
      if place.inRawText then nodes.flatten else escapeText nodes.flatten := by
  have htext := funext (writeText_of_verbatim hverbatim hplain)
  rw [Style.writeNodes, htext]
  cases place.inRawText with
  | true => exact List.flatMap_id
  | false =>
    induction nodes with
    | nil => rfl
    | cons node nodes ih => simpa using ih

/-- Where nothing is typographed a stretch is read back with the text that it had. -/
theorem text_read_span {entry : Place σ × Stretch}
    (hplain : style.policy.typographs entry.1.policyState = false)
    (hraw : entry.1.inRawText = entry.2.mark.opensRawText)
    (hnull : '\x00' ∉ entry.2.nodes.flatten) (hreturn : '\r' ∉ entry.2.nodes.flatten) :
    (style.span entry).normalise.read.text = entry.2.nodes.flatten := by
  have hwritten : (style.span entry).text =
      if entry.1.inRawText then entry.2.nodes.flatten else escapeText entry.2.nodes.flatten :=
    writeNodes_of_verbatim hverbatim hplain entry.2.nodes
  have hopens : (style.span entry).tag.opensRawText = entry.2.mark.opensRawText :=
    congrArg (Option.any _) (style.opens?_adjusted _)
  cases hopensRaw : entry.2.mark.opensRawText with
  | true =>
    rw [hraw, hopensRaw, if_pos rfl] at hwritten
    rw [Span.read, Span.normalise, hwritten, normaliseLineEnds_of_not_mem hreturn,
      readText_opens? _ hnull, opensRawText_normalise, hopens, hopensRaw, if_pos rfl]
  | false =>
    rw [hraw, hopensRaw, if_neg Bool.false_ne_true] at hwritten
    have hescaped : '\r' ∉ (style.span entry).text :=
      hwritten ▸ not_mem_escapeText (by decide) hreturn
    rw [text_read_normalise hwritten hnull hescaped, hopens, hopensRaw, if_neg Bool.false_ne_true]

end

theorem isKey_class : IsKey "class".toList := by
  refine ⟨by decide, ?_, by decide, by decide⟩
  simp [endsName, isTagBlank]

/-- The rewrite of tables can be read back. -/
theorem rereadable_tableClasses : tableClasses.Rereadable where
  escape := rfl
  adjust name attributes htag := by
    simp only [tableClasses]
    split
    · refine ⟨htag.name, fun entry hentry => ?_, fun entry hentry => ?_,
        Attribute.nodup_key_set htag.distinct⟩
      · obtain rfl | hentry := Attribute.mem_set hentry
        · exact isKey_class
        · exact htag.keys entry hentry
      · obtain rfl | hentry := Attribute.mem_set hentry
        · decide
        · exact htag.values entry hentry
    · exact htag
  text place := by
    have hwritten (s : Text) : tableClasses.writeText place s =
        if place.inRawText then s else escapeText s :=
      writeText_of_verbatim rfl rfl s
    cases hraw : place.inRawText with
    | true => exact .inr ⟨rfl, fun s => by simp [hwritten, hraw]⟩
    | false => exact .inl fun s => by simpa [hwritten, hraw] using angle_not_mem_escapeText s

/-- The rewrite of fragments can be read back, since no rule writes a `<`. -/
theorem rereadable_inlineFragment : inlineFragment.Rereadable where
  escape := rfl
  adjust _ _ htag := htag
  text place := by
    cases hraw : place.inRawText with
    | true => exact .inr ⟨rfl, fun s => by simp [Style.writeText, inlineFragment, hraw]⟩
    | false =>
      refine .inl fun s hmem => ?_
      simp only [Style.writeText, hraw, Bool.and_false, Bool.false_eq_true, if_false] at hmem
      split at hmem
      · obtain hsign | hmem := List.mem_append.1 (Typography.inline_apply_subset _ hmem)
        · exact absurd hsign (by decide)
        · exact angle_not_mem_escapeText s hmem
      · exact angle_not_mem_escapeText s hmem

theorem foldl_after_inlineFragment (marks : List Token) (place : Place (List Text)) :
    (marks.foldl inlineFragment.after place).policyState =
      marks.foldl openElements place.policyState := by
  induction marks generalizing place with
  | nil => rfl
  | cons mark marks ih =>
    have hnext : (inlineFragment.after place mark).policyState =
        openElements place.policyState mark := by
      cases mark with
      | startTag name attributes selfClosing => cases selfClosing <;> rfl
      | _ => rfl
    rw [List.foldl_cons, List.foldl_cons, ih, hnext]

/-- The lead of a text, which stands outside every element, is read back if the style escapes it. -/
theorem readText_lead {s : Text} (hnull : '\x00' ∉ s) (hreturn : '\r' ∉ s) (hmark : '\ufeff' ∉ s) :
    readText none (normaliseLineEnds (escapeText s).dropByteOrderMark) = s := by
  have hhead : (escapeText s).head? ≠ some '\ufeff' := fun heq =>
    not_mem_escapeText (by decide) hmark (List.mem_of_mem_head? heq)
  have hread := readText_opens? .documentType (not_mem_escapeText (by decide) hnull)
  rw [Text.dropByteOrderMark_of_head? hhead,
    normaliseLineEnds_of_not_mem (not_mem_escapeText (by decide) hreturn)]
  simpa [Token.opens?, Token.opensRawText, decodeText_escapeText] using hread

section

variable {σ : Type} {style : Style σ} (hcomments : style.keepComments = true)

include hcomments

theorem outline_eq_spansAt_keeps (tokens : List Token) :
    outline tokens = spansAt style.keeps tokens := by
  have hkeeps : style.keeps = Token.isMark := funext fun token => if_pos hcomments
  rw [outline, hkeeps]

/-- Where comments are kept the stretches have the marks and the text of the outline. -/
theorem outline_eq_source (input : Text) :
    outline (tokenize input) = ((stretches style.keeps (tokenize input)).1.flatten,
      (style.source input).map fun entry => ⟨entry.2.mark, entry.2.nodes.flatten⟩) := by
  have hsource := style.map_snd_placed style.start (stretches style.keeps (tokenize input)).2
  rw [outline_eq_spansAt_keeps hcomments, spansAt_eq_stretches]
  conv => lhs; rw [← hsource, List.map_map]
  rfl

variable (hverbatim : style.verbatimRawText = true) {input : Text}
  (hreturn : ∀ token ∈ tokenize input, token.holdsReturn = false)

include hverbatim hreturn

omit hcomments in
/-- A stretch that is not typographed is read back as it was, its tag as it is adjusted. -/
theorem read_span {entry : Place σ × Stretch} (hentry : entry ∈ style.source input)
    (hplain : style.policy.typographs entry.1.policyState = false)
    (hadjusted : (style.adjusted entry.2.mark).holdsReturn = false) :
    (style.span entry).normalise.read =
      ⟨style.adjusted entry.2.mark, entry.2.nodes.flatten⟩ := by
  have hstretch := Style.snd_mem_of_mem_source hentry
  have hnull : '\x00' ∉ entry.2.nodes.flatten := (not_mem_stretches style.keeps fun token htoken =>
    Token.null_not_mem_chars ((orderly_tokenize input).wellFormed token htoken)).2 _ hstretch
  have hnoReturn : '\r' ∉ entry.2.nodes.flatten := (not_mem_stretches style.keeps fun token htoken =>
    Token.return_not_mem_chars (hreturn token htoken)).2 _ hstretch
  have htext := text_read_span hverbatim hplain (Style.inRawText_of_mem_source hentry) hnull hnoReturn
  rw [← style.tag_read_span hadjusted, ← htext]

/-- The outline of what is written, where the head of a text is not typographed. -/
theorem outline_tokenize_write (h : style.Rereadable)
    (hstart : style.policy.typographs style.policy.start = false)
    (hmark : ∀ token ∈ tokenize input, '\ufeff' ∉ token.chars) :
    outline (tokenize (style.write (tokenize input))) = ((outline (tokenize input)).1,
      (style.source input).map fun entry => (style.span entry).normalise.read) := by
  have hwritten : style.writeNodes style.start (stretches style.keeps (tokenize input)).1 =
      escapeText (stretches style.keeps (tokenize input)).1.flatten :=
    writeNodes_of_verbatim hverbatim hstart _
  rw [outline_eq_spansAt_keeps hcomments, h.spansAt_tokenize, hwritten,
    outline_eq_source hcomments]
  refine Prod.ext (readText_lead ?_ ?_ ?_) rfl
  · exact (not_mem_stretches style.keeps fun token htoken =>
      Token.null_not_mem_chars ((orderly_tokenize input).wellFormed token htoken)).1
  · exact (not_mem_stretches style.keeps fun token htoken =>
      Token.return_not_mem_chars (hreturn token htoken)).1
  · exact (not_mem_stretches style.keeps hmark).1

end

theorem adjusted_tableClasses (token : Token) :
    tableClasses.adjusted token = token.bare.withTableClass := by
  cases token <;> rfl

theorem holdsReturn_withTableClass {token : Token} (htoken : token.holdsReturn = false) :
    token.withTableClass.holdsReturn = false := by
  cases token with
  | startTag name attributes selfClosing =>
    by_cases htable : name = "table".toList
    · simp only [Token.withTableClass, Token.holdsReturn, htable, if_true, List.any_eq_false,
        List.contains_iff_mem] at htoken ⊢
      intro entry hentry
      obtain rfl | hentry := Attribute.mem_set hentry
      · decide
      · exact htoken entry hentry
    · rwa [Token.withTableClass, if_neg htable]
  | _ => exact htoken

theorem adjusted_inlineFragment (token : Token) : inlineFragment.adjusted token = token.bare := by
  cases token <;> rfl

/-- The place of a stretch of a fragment has the open elements of the tags up to there. -/
theorem policyState_of_getElem?_source {input : Text} {i : Nat}
    {entry : Place (List Text) × Stretch} (hentry : (inlineFragment.source input)[i]? = some entry) :
    entry.1.policyState = ((((outline (tokenize input)).2.map Span.tag).take (i + 1)).foldl
      openElements []) := by
  have hmarks : (outline (tokenize input)).2.map Span.tag =
      (stretches inlineFragment.keeps (tokenize input)).2.map Stretch.mark := by
    have hcomments : inlineFragment.keepComments = true := rfl
    rw [outline_eq_spansAt_keeps hcomments, spansAt_eq_stretches, List.map_map]
    rfl
  rw [Style.source, Style.getElem?_placed] at hentry
  obtain ⟨stretch, -, rfl⟩ := Option.map_eq_some_iff.1 hentry
  rw [foldl_after_inlineFragment, hmarks]
  rfl

section

variable {input : Text} (hreturn : ∀ token ∈ tokenize input, token.holdsReturn = false)

include hreturn

/-- Giving tables their class leaves all marks and all text as they were, but for the tags of tables
    and what is not written of end tags. -/
theorem outline_tokenize_withTableClasses
    (hmark : ∀ token ∈ tokenize input, '\ufeff' ∉ token.chars) :
    outline (tokenize (withTableClasses input)) = ((outline (tokenize input)).1,
      (outline (tokenize input)).2.map fun span => ⟨span.tag.bare.withTableClass, span.text⟩) := by
  have hcomments : tableClasses.keepComments = true := rfl
  have houtline : outline (tokenize (withTableClasses input)) = _ :=
    outline_tokenize_write hcomments rfl hreturn rereadable_tableClasses rfl hmark
  rw [houtline, outline_eq_source hcomments input]
  refine Prod.ext rfl ?_
  rw [List.map_map]
  refine List.map_congr_left fun entry hentry => ?_
  have hadjusted : (tableClasses.adjusted entry.2.mark).holdsReturn = false := by
    have hmark := hreturn _ (Style.mark_mem_of_mem_source hentry).1
    rw [adjusted_tableClasses]
    exact holdsReturn_withTableClass (Token.holdsReturn_bare hmark)
  rw [read_span rfl hreturn hentry rfl hadjusted, adjusted_tableClasses]
  rfl

/-- The tag of a stretch of a fragment is read back as it was, but for what is not written of it. -/
theorem holdsReturn_adjusted_inlineFragment {entry : Place (List Text) × Stretch}
    (hentry : entry ∈ inlineFragment.source input) :
    (inlineFragment.adjusted entry.2.mark).holdsReturn = false := by
  rw [adjusted_inlineFragment]
  exact Token.holdsReturn_bare (hreturn _ (Style.mark_mem_of_mem_source hentry).1)

theorem outline_tokenize_typographFragment
    (hmark : ∀ token ∈ tokenize input, '\ufeff' ∉ token.chars) :
    outline (tokenize (typographFragment input)) = ((outline (tokenize input)).1,
      (inlineFragment.source input).map fun entry => (inlineFragment.span entry).normalise.read) := by
  have hcomments : inlineFragment.keepComments = true := rfl
  exact outline_tokenize_write hcomments rfl hreturn rereadable_inlineFragment rfl hmark

theorem map_tag_outline_typographFragment
    (hmark : ∀ token ∈ tokenize input, '\ufeff' ∉ token.chars) :
    (outline (tokenize (typographFragment input))).1 = (outline (tokenize input)).1 ∧
      (outline (tokenize (typographFragment input))).2.map Span.tag =
        ((outline (tokenize input)).2.map Span.tag).map Token.bare := by
  have hcomments : inlineFragment.keepComments = true := rfl
  rw [outline_tokenize_typographFragment hreturn hmark, outline_eq_source hcomments input]
  refine ⟨rfl, ?_⟩
  rw [List.map_map, List.map_map, List.map_map]
  refine List.map_congr_left fun entry hentry => ?_
  have hadjusted := holdsReturn_adjusted_inlineFragment hreturn hentry
  exact (inlineFragment.tag_read_span hadjusted).trans (adjusted_inlineFragment _)

/-- Outside the elements that it typographs, the pass over a fragment keeps text and marks. -/
theorem getElem?_outline_typographFragment
    (hmark : ∀ token ∈ tokenize input, '\ufeff' ∉ token.chars) {i : Nat} {span : Span}
    (hspan : (outline (tokenize input)).2[i]? = some span)
    (hplain : ((((outline (tokenize input)).2.map Span.tag).take (i + 1)).foldl
      openElements []).head?.any (· ∈ inlineElements) = false) :
    (outline (tokenize (typographFragment input))).2[i]? = some ⟨span.tag.bare, span.text⟩ := by
  have hcomments : inlineFragment.keepComments = true := rfl
  rw [outline_eq_source hcomments input, List.getElem?_map] at hspan
  obtain ⟨entry, hentry, rfl⟩ := Option.map_eq_some_iff.1 hspan
  have hmem := List.mem_of_getElem? hentry
  rw [← policyState_of_getElem?_source hentry] at hplain
  rw [outline_tokenize_typographFragment hreturn hmark, List.getElem?_map, hentry, Option.map_some,
    read_span rfl hreturn hmem hplain (holdsReturn_adjusted_inlineFragment hreturn hmem),
    adjusted_inlineFragment]

end

theorem withTableClass_bare_eq_iff (token : Token) :
    token.bare.withTableClass = token.withTableClass ↔ token.bare = token := by
  cases token <;> simp [Token.bare, Token.withTableClass]

/-- Giving tables their class does not make up for what an end tag has lost. -/
theorem map_withTableClass_bare_eq_iff (tokens : List Token) :
    ((outline tokens).2.map fun span => (⟨span.tag.bare.withTableClass, span.text⟩ : Span)) =
        ((outline tokens).2.map fun span => ⟨span.tag.withTableClass, span.text⟩) ↔
      EndTagsBare tokens := by
  rw [← forall_bare_eq_self_iff (fun _ => Token.isMark_of_isTag), ← map_tag_outline,
    List.forall_mem_map, List.map_inj_left]
  refine forall₂_congr fun span _ => ?_
  rw [Span.mk.injEq, ← withTableClass_bare_eq_iff]
  exact and_iff_left rfl

/-- The rewrites that escape all text lose nothing but the attributes and slashes of end tags. Giving
    tables their class leaves all marks and all text as they were, but for the tags of tables; the pass
    over a fragment changes no more than the text of the elements that it typographs. Nothing at all is
    lost exactly if no end tag has attributes or closes itself. -/
theorem escaping_rewrites_keep_outline (input : Text)
    (hreturn : ∀ token ∈ tokenize input, token.holdsReturn = false)
    (hmark : ∀ token ∈ tokenize input, '\ufeff' ∉ token.chars) :
    let read := outline (tokenize input)
    let classed := outline (tokenize (withTableClasses input))
    let typographed := outline (tokenize (typographFragment input))
    classed = (read.1, read.2.map fun span => ⟨span.tag.bare.withTableClass, span.text⟩) ∧
      (classed = (read.1, read.2.map fun span => ⟨span.tag.withTableClass, span.text⟩) ↔
        EndTagsBare (tokenize input)) ∧
      typographed.1 = read.1 ∧
      typographed.2.map Span.tag = (read.2.map Span.tag).map Token.bare ∧
      (typographed.2.map Span.tag = read.2.map Span.tag ↔ EndTagsBare (tokenize input)) ∧
      ∀ i span, read.2[i]? = some span →
        (((read.2.map Span.tag).take (i + 1)).foldl openElements []).head?.any
          (· ∈ inlineElements) = false →
        typographed.2[i]? = some ⟨span.tag.bare, span.text⟩ := by
  intro read classed typographed
  have hclassed := outline_tokenize_withTableClasses hreturn hmark
  obtain ⟨hlead, htags⟩ := map_tag_outline_typographFragment hreturn hmark
  refine ⟨hclassed, ?_, hlead, htags, ?_, fun i span => ?_⟩
  · rw [← map_withTableClass_bare_eq_iff]
    refine (Eq.congr_left hclassed).trans ?_
    rw [Prod.mk.injEq]
    exact and_iff_right rfl
  · have hbare := map_bare_eq_self_iff (fun _ => Token.isMark_of_isTag) (tokenize input)
    rw [htags]
    rwa [← map_tag_outline] at hbare
  · exact getElem?_outline_typographFragment hreturn hmark

theorem escaping_rewrites_keep_odd_table_and_script :
    let input :=
      "a -- b<!x><table CLASS=x a='\"' =y><td>c -- d</td><script><!--<b>&</script>-- e".toList
    let table : Span := ⟨.startTag "table".toList [⟨"class".toList, tableClass⟩,
      ⟨"a".toList, "\"".toList⟩, ⟨"=y".toList, []⟩] false, []⟩
    let script : Span := ⟨.startTag "script".toList [] false, "<!--<b>&".toList⟩
    (∀ token ∈ tokenize input, token.holdsReturn = false) ∧
      (∀ token ∈ tokenize input, '\ufeff' ∉ token.chars) ∧
      EndTagsBare (tokenize input) ∧
      (outline (tokenize (withTableClasses input))).2[1]? = some table ∧
      (outline (tokenize (typographFragment input))).1 = "a -- b".toList ∧
      (outline (tokenize (typographFragment input))).2[4]? = some script := by
  intro input table script
  have hreturn : ∀ token ∈ tokenize input, token.holdsReturn = false := by decide +kernel
  have hmark : ∀ token ∈ tokenize input, '\ufeff' ∉ token.chars := by decide +kernel
  obtain ⟨htables, -, hlead, htags, hsame, htext⟩ :=
    escaping_rewrites_keep_outline input hreturn hmark
  have hbare : ((outline (tokenize input)).2.map Span.tag).map Token.bare =
      (outline (tokenize input)).2.map Span.tag := by
    decide +kernel
  refine ⟨hreturn, hmark, hsame.1 (htags.trans hbare), ?_, ?_, ?_⟩
  · rw [htables]
    decide +kernel
  · rw [hlead]
    decide +kernel
  · exact htext 4 script (by decide +kernel) (by decide +kernel)

/-- What an end tag holds beside its name is lost in both rewrites. -/
theorem rewrites_drop_end_tag_attributes :
    let tables := "<table></table class=\"x\">".toList
    let fragment := "<p></p a=\"b\"/>".toList
    (∀ token ∈ tokenize tables ++ tokenize fragment,
        token.holdsReturn = false ∧ '\ufeff' ∉ token.chars) ∧
      (outline (tokenize tables)).2[1]? =
        some ⟨.endTag "table".toList [⟨"class".toList, "x".toList⟩] false, []⟩ ∧
      (outline (tokenize (withTableClasses tables))).2[1]? =
        some ⟨.endTag "table".toList [] false, []⟩ ∧
      (outline (tokenize fragment)).2[1]? =
        some ⟨.endTag "p".toList [⟨"a".toList, "b".toList⟩] true, []⟩ ∧
      typographFragment fragment = "<p></p>".toList ∧
      (outline (tokenize (typographFragment fragment))).2[1]? =
        some ⟨.endTag "p".toList [] false, []⟩ := by
  decide +kernel

end PostMarkup.Html
