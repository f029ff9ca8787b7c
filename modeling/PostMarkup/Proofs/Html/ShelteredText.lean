import PostMarkup.Proofs.Html.UntouchedText

namespace PostMarkup.Html

/-- A change of the tags that leaves their names leaves the zones. -/
theorem foldl_zoneAfter_map {f : Token → Token}
    (hf : ∀ zone tag, zoneAfter zone (f tag) = zoneAfter zone tag) (zone : SkipZone)
    (tags : List Token) : (tags.map f).foldl zoneAfter zone = tags.foldl zoneAfter zone := by
  rw [List.foldl_map]
  exact congrArg (tags.foldl · zone) (funext fun zone => funext (hf zone))

theorem zoneAfter_normalise (zone : SkipZone) (tag : Token) :
    zoneAfter zone tag.normalise = zoneAfter zone tag := by
  cases tag <;> rfl

theorem zoneAfter_bare (zone : SkipZone) (tag : Token) :
    zoneAfter zone tag.bare = zoneAfter zone tag := by
  cases tag <;> rfl

/-- What the second pass makes of a sheltered span. -/
theorem getElem?_spans_typographStored {input : Text} {i : Nat} {span : Span}
    (hspan : (stored.spans input)[i]? = some span)
    (hactive : (((tags (tokenize input)).take (i + 1)).foldl zoneAfter {}).isActive = true)
    (hreturn : '\r' ∉ span.text) :
    (stored.spans (typographStored input))[i]? = some
      ⟨span.tag.normalise, if span.tag.opensRawText then escapeText span.text else span.text⟩ := by
  have hagain : (((tags (tokenize (typographStored input))).take (i + 1)).foldl zoneAfter
      {}).isActive = true := by
    rwa [tags_tokenize_typographStored, ← List.map_take, foldl_zoneAfter_map]
    exact fun zone tag => (zoneAfter_normalise zone tag.bare).trans (zoneAfter_bare zone tag)
  have hfirst := hspan
  rw [getElem?_spans_stored hactive] at hfirst
  obtain ⟨read, hread, hwritten⟩ := Option.map_eq_some_iff.1 hfirst
  have hnull : '\x00' ∉ read.text :=
    (null_not_mem_cut (orderly_tokenize input).wellFormed).2 _ (List.mem_of_getElem? hread)
  have htext : span.text = escapeText read.text := hwritten ▸ rfl
  have hkept : span.tag.normalise.bare = span.tag.normalise :=
    hwritten ▸ bare_normalise_bare read.tag
  have htag : span.normalise.read.tag.bare = span.tag.normalise :=
    (congrArg Token.bare hkept).trans hkept
  rw [getElem?_spans_stored hagain, cut_tokenize_typographStored, List.getElem?_map, hspan,
    Option.map_some, Option.map_some, text_read_normalise htext hnull hreturn, htag]
  split
  · rfl
  · rw [← htext]

/-- The typographic pass over its own output writes the same tags, but for line ends in values, so the
    skip zones are the same. Sheltered text without U+000D is written as it was the first time. Only in
    raw text elements it is escaped once more, which leaves it as it is if it holds nothing to escape. -/
theorem typographStored_twice_keeps_sheltered_text (input : Text) :
    let once := stored.spans input
    let twice := stored.spans (typographStored input)
    typographStored input = stored.lead input ++ once.flatMap Span.write ∧
      typographStored (typographStored input) =
        stored.lead (typographStored input) ++ twice.flatMap Span.write ∧
      twice.map Span.tag = once.map (fun span => span.tag.normalise) ∧
      (∀ i, ((twice.map Span.tag).take i).foldl zoneAfter {} =
        ((once.map Span.tag).take i).foldl zoneAfter {}) ∧
      ∀ i span, once[i]? = some span →
        (((once.map Span.tag).take (i + 1)).foldl zoneAfter {}).isActive = true →
        '\r' ∉ span.text →
        ∃ again, twice[i]? = some again ∧
          (span.tag.opensRawText = false → again.text = span.text) ∧
          (span.tag.opensRawText = true → again.text = escapeText span.text ∧
            (again.text = span.text ↔ ∀ c ∈ span.text, c ∉ "<>&".toList)) := by
  intro once twice
  have htags : twice.map Span.tag = (once.map Span.tag).map Token.normalise := by
    rw [map_tag_spans_stored, map_tag_spans_stored, tags_tokenize_typographStored, List.map_map,
      List.map_map]
    exact List.map_congr_left fun tag _ => bare_normalise_bare tag
  have hzones (i : Nat) : ((twice.map Span.tag).take i).foldl zoneAfter {} =
      ((once.map Span.tag).take i).foldl zoneAfter {} := by
    rw [htags, ← List.map_take, foldl_zoneAfter_map zoneAfter_normalise]
  refine ⟨typographStored_eq_spans input, typographStored_eq_spans _, ?_, hzones,
    fun i span hspan hactive hreturn => ?_⟩
  · rw [htags, List.map_map]
    rfl
  rw [map_tag_spans_stored, ← List.map_take, foldl_zoneAfter_map zoneAfter_bare] at hactive
  refine ⟨_, getElem?_spans_typographStored hspan hactive hreturn, fun hraw => ?_, fun hraw => ?_⟩
  · simp only [hraw, Bool.false_eq_true, if_false]
  · simp only [hraw, if_true, true_and]
    exact escapeText_eq_self_iff span.text

theorem typographStored_twice_keeps_title_in_pre :
    let input :=
      "<pre>a -- b<!--c-->&amp;lt;<title lang='&#13;'>&lt;/title>... &#60;b></title></pre>".toList
    let title : Span := ⟨.startTag "title".toList [⟨"lang".toList, ['\r']⟩] false,
      "&lt;/title&gt;... &lt;b&gt;".toList⟩
    (stored.spans input)[1]? = some title ∧
      ∃ again, (stored.spans (typographStored input))[1]? = some again ∧ again.text = title.text := by
  intro input title
  have htitle : (stored.spans input)[1]? = some title := by decide +kernel
  have hactive : ((((stored.spans input).map Span.tag).take 2).foldl zoneAfter {}).isActive = true := by
    decide +kernel
  obtain ⟨-, -, -, -, hsheltered⟩ := typographStored_twice_keeps_sheltered_text input
  obtain ⟨again, hagain, htext, -⟩ := hsheltered 1 title htitle hactive (by decide)
  exact ⟨htitle, again, hagain, htext (by decide +kernel)⟩

/-- The body of a script is part of the skip zone, and is read as it is written. -/
theorem script_is_escaped_twice :
    let input := "<script>a&b</script>".toList
    (∀ token ∈ tokenize input, '\r' ∉ token.chars ∧ '\ufeff' ∉ token.chars) ∧
      (((tags (tokenize input)).take 1).foldl zoneAfter {}).isActive = true ∧
      typographStored input = "<script>a&amp;b</script>".toList ∧
      typographStored (typographStored input) = "<script>a&amp;amp;b</script>".toList := by
  decide +kernel

end PostMarkup.Html
