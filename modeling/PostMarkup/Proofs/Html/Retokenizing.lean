import PostMarkup.Proofs.Html.Rereading
import PostMarkup.Proofs.Text.Escape
import PostMarkup.Proofs.Typography.Alphabet

namespace PostMarkup.Html

theorem writeText_stored (place : Place SkipZone) (s : Text) :
    stored.writeText place s =
      if place.policyState.isActive then escapeText s
      else Typography.RuleSet.html.apply (escapeAngles s) := by
  cases hactive : place.policyState.isActive <;>
    simp [Style.writeText, stored, TextPolicy.skipping, hactive]

/-- Text is written so that no markup begins in it. No rule writes a `<`. -/
theorem angle_not_mem_writeText_stored (place : Place SkipZone) (s : Text) :
    '<' ∉ stored.writeText place s := by
  intro hmem
  rw [writeText_stored] at hmem
  split at hmem
  · exact angle_not_mem_escapeText s hmem
  · obtain hsign | hmem := List.mem_append.1 (Typography.html_apply_subset _ hmem)
    · exact absurd hsign (by decide)
    · obtain hescape | ⟨hangle, -⟩ := mem_escapeAngles hmem
      · exact absurd hescape (by decide)
      · exact hangle rfl

theorem rereadable_stored : stored.Rereadable where
  escape := rfl
  adjust _ _ htag := htag
  text place := .inl (angle_not_mem_writeText_stored place)

/-- In a skip zone the nodes of a stretch are only escaped. -/
theorem writeNodes_of_isActive {place : Place SkipZone}
    (hactive : place.policyState.isActive = true) (nodes : List Text) :
    stored.writeNodes place nodes = escapeText nodes.flatten := by
  unfold Style.writeNodes
  induction nodes with
  | nil => rfl
  | cons node nodes ih =>
    rw [List.flatMap_cons, ih, writeText_stored, if_pos hactive, List.flatten_cons,
      escapeText_append]

def zoneAfter (zone : SkipZone) : Token → SkipZone
  | .startTag name _ selfClosing =>
    if selfClosing then zone else (TextPolicy.skipping .html).opened name zone
  | .endTag name _ _ => (TextPolicy.skipping .html).closed name zone
  | _ => zone

theorem keeps_stored : stored.keeps = Token.isTag := rfl

theorem adjusted_stored (token : Token) : stored.adjusted token = token.bare := by
  cases token <;> rfl

theorem policyState_after_stored (place : Place SkipZone) (mark : Token) :
    (stored.after place mark).policyState = zoneAfter place.policyState mark := by
  cases mark with
  | startTag name attributes selfClosing => cases selfClosing <;> rfl
  | _ => rfl

theorem policyState_foldl_after_stored (marks : List Token) (place : Place SkipZone) :
    (marks.foldl stored.after place).policyState = marks.foldl zoneAfter place.policyState := by
  induction marks generalizing place with
  | nil => rfl
  | cons mark marks ih =>
    rw [List.foldl_cons, List.foldl_cons, ih, policyState_after_stored]

theorem typographStored_eq_spans (input : Text) :
    typographStored input = stored.lead input ++ (stored.spans input).flatMap Span.write :=
  Style.write_eq rfl (tokenize input)

theorem map_mark_stretches_stored (input : Text) :
    (stretches stored.keeps (tokenize input)).2.map Stretch.mark = tags (tokenize input) :=
  map_mark_stretches stored.keeps (tokenize input)

theorem map_tag_spans_stored (input : Text) :
    (stored.spans input).map Span.tag = (tags (tokenize input)).map Token.bare := by
  have hmarks := map_mark_stretches_stored input
  rw [← stored.map_snd_placed stored.start (stretches stored.keeps (tokenize input)).2,
    List.map_map] at hmarks
  rw [Style.spans, List.map_map, ← hmarks, List.map_map]
  exact List.map_congr_left fun entry _ => adjusted_stored entry.2.mark

/-- In the skip zone each text is written escaped. -/
theorem getElem?_spans_stored {input : Text} {i : Nat}
    (hactive : (((tags (tokenize input)).take (i + 1)).foldl zoneAfter {}).isActive = true) :
    (stored.spans input)[i]? =
      (cut (tokenize input)).2[i]?.map fun span => ⟨span.tag.bare, escapeText span.text⟩ := by
  have hplace : (((tags (tokenize input)).take (i + 1)).foldl stored.after
      stored.start).policyState.isActive = true := by
    rwa [policyState_foldl_after_stored]
  rw [cut, ← keeps_stored, spansAt_eq_stretches, Style.spans, Style.source,
    List.getElem?_map, Style.getElem?_placed, map_mark_stretches_stored, List.getElem?_map,
    Option.map_map, Option.map_map]
  refine Option.map_congr fun stretch _ => ?_
  simp only [Function.comp_apply, Style.span, adjusted_stored, writeNodes_of_isActive hplace]

/-- The output is read as its spans. -/
theorem cut_tokenize_typographStored (input : Text) :
    (cut (tokenize (typographStored input))).2 =
      (stored.spans input).map fun span => span.normalise.read :=
  rereadable_stored.snd_spansAt_tokenize input

theorem bare_normalise_bare (token : Token) : token.bare.normalise.bare = token.bare.normalise := by
  cases token <;> rfl

theorem tags_tokenize_typographStored (input : Text) :
    tags (tokenize (typographStored input)) =
      (tags (tokenize input)).map fun tag => tag.bare.normalise := by
  rw [← map_tag_cut, cut_tokenize_typographStored, List.map_map]
  have htags := map_tag_spans_stored input
  have hread : (stored.spans input).map (Span.tag ∘ fun span => span.normalise.read) =
      ((stored.spans input).map Span.tag).map fun tag => tag.normalise.bare := by
    rw [List.map_map]
    rfl
  rw [hread, htags, List.map_map]
  exact List.map_congr_left fun tag _ => bare_normalise_bare tag

theorem null_not_mem_cut {tokens : List Token} (htokens : ∀ token ∈ tokens, token.WellFormed) :
    '\x00' ∉ (cut tokens).1 ∧ ∀ span ∈ (cut tokens).2, '\x00' ∉ span.text :=
  not_mem_spansAt _ fun token htoken => Token.null_not_mem_chars (htokens token htoken)

theorem opensRawText_bare (token : Token) : token.bare.opensRawText = token.opensRawText := by
  cases token <;> rfl

/-- Text never turns into markup. Typographed HTML has the tags that it had before, with the same
    attributes and the same values, but that end tags are written by their names only: the tags are
    the same exactly if no end tag has attributes or closes itself. Text in the skip zone is kept as
    well, raw text elements apart, where nothing is decoded and what has been escaped stays so. -/
theorem typographStored_keeps_tags (input : Text)
    (hinput : ∀ token ∈ tokenize input, token.holdsReturn = false) :
    tags (tokenize (typographStored input)) = (tags (tokenize input)).map Token.bare ∧
      (tags (tokenize (typographStored input)) = tags (tokenize input) ↔
        EndTagsBare (tokenize input)) ∧
      ∀ i span, (cut (tokenize input)).2[i]? = some span →
        (((tags (tokenize input)).take (i + 1)).foldl zoneAfter {}).isActive →
        span.tag.opensRawText = false →
        (cut (tokenize (typographStored input))).2[i]? = some ⟨span.tag.bare, span.text⟩ := by
  have hnormal {tag : Token} (htag : tag ∈ tags (tokenize input)) : tag.bare.normalise = tag.bare := by
    have hreturn := hinput tag (List.mem_of_mem_filter htag)
    exact normalise_of_holdsReturn (Token.holdsReturn_bare hreturn)
  have htags : tags (tokenize (typographStored input)) = (tags (tokenize input)).map Token.bare := by
    rw [tags_tokenize_typographStored]
    exact List.map_congr_left fun tag htag => hnormal htag
  refine ⟨htags, ?_, fun i span hspan hactive hraw => ?_⟩
  · rw [htags]
    exact map_bare_eq_self_iff (fun _ htag => htag) (tokenize input)
  · have hmem := List.mem_of_getElem? hspan
    have htag : span.tag ∈ tags (tokenize input) := map_tag_cut _ ▸ List.mem_map_of_mem hmem
    have hnull := (null_not_mem_cut (orderly_tokenize input).wellFormed).2 span hmem
    have hreturn : '\r' ∉ span.text := (not_mem_spansAt Token.isTag fun token htoken =>
      Token.return_not_mem_chars (hinput token htoken)).2 span hmem
    let written : Span := ⟨span.tag.bare, escapeText span.text⟩
    have htext : written.normalise.read.text = span.text := by
      have hescaped : '\r' ∉ written.text := not_mem_escapeText (by decide) hreturn
      rw [text_read_normalise rfl hnull hescaped, opensRawText_bare, hraw, if_neg Bool.false_ne_true]
    have hbare : written.normalise.read.tag = span.tag.bare :=
      (bare_normalise_bare span.tag).trans (hnormal htag)
    rw [cut_tokenize_typographStored, List.getElem?_map, getElem?_spans_stored hactive, hspan]
    exact congrArg some (congrArg₂ Span.mk hbare htext)

theorem typographStored_keeps_title_in_pre :
    let input :=
      "<pre x='\"' =y>a -- b<!--c-->&amp;lt;<title>&lt;/title>... &#60;b></title></pre>+-".toList
    let title : Span := ⟨.startTag "title".toList [] false, "</title>... <b>".toList⟩
    (∀ token ∈ tokenize input, token.holdsReturn = false) ∧
      EndTagsBare (tokenize input) ∧
      tags (tokenize (typographStored input)) = tags (tokenize input) ∧
      (cut (tokenize (typographStored input))).2[1]? = some title := by
  intro input title
  have hinput : ∀ token ∈ tokenize input, token.holdsReturn = false := by decide +kernel
  obtain ⟨htags, hkept, hsheltered⟩ := typographStored_keeps_tags input hinput
  have hbare : (tags (tokenize input)).map Token.bare = tags (tokenize input) := by decide +kernel
  have hsame := htags.trans hbare
  exact ⟨hinput, hkept.1 hsame, hsame,
    hsheltered 1 title (by decide +kernel) (by decide +kernel) (by decide +kernel)⟩

/-- Of an end tag only the name is written. -/
theorem end_tag_loses_attribute_and_slash :
    let input := "<p></p a=\"b\"/>".toList
    let paragraph := Token.startTag "p".toList [] false
    (∀ token ∈ tokenize input, token.holdsReturn = false) ∧
      tags (tokenize input) =
        [paragraph, .endTag "p".toList [⟨"a".toList, "b".toList⟩] true] ∧
      typographStored input = "<p></p>".toList ∧
      tags (tokenize (typographStored input)) = [paragraph, .endTag "p".toList [] false] := by
  decide +kernel

end PostMarkup.Html
