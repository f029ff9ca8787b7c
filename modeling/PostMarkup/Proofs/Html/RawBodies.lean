import PostMarkup.Proofs.Html.ShelteredText
import PostMarkup.Proofs.Policy.SkipZone
import PostMarkup.Proofs.Typography.Ampersands

namespace PostMarkup

/-- Some characters are escaped, and the others stand as they are. -/
inductive PartiallyEscaped : Text → Text → Prop
  | nil : PartiallyEscaped [] []
  | kept (c : Char) {s written : Text} (hlater : PartiallyEscaped s written) :
    PartiallyEscaped (c :: s) (c :: written)
  | escaped (c : Char) {s written : Text} (hlater : PartiallyEscaped s written) :
    PartiallyEscaped (c :: s) (escapeText [c] ++ written)

theorem partiallyEscaped_escapeText (s : Text) : PartiallyEscaped s (escapeText s) := by
  induction s with
  | nil => exact .nil
  | cons c s ih =>
    rw [← List.singleton_append, escapeText_append]
    exact .escaped c ih

theorem partiallyEscaped_escapeAngles (s : Text) : PartiallyEscaped s (escapeAngles s) := by
  induction s with
  | nil => exact .nil
  | cons c s ih =>
    rw [← List.singleton_append, escapeAngles_append]
    by_cases hc : c = '&'
    · subst hc
      exact .kept '&' ih
    · rw [escapeAngles_singleton hc]
      exact .escaped c ih

/-- However many characters are escaped, there are no more ampersands than there were ampersands and
    angle brackets. -/
theorem PartiallyEscaped.count_le {s written : Text} (h : PartiallyEscaped s written) :
    written.count '&' ≤ (escapeAngles s).count '&' := by
  have hfirst (c : Char) : ([c] : Text).count '&' ≤ (escapeAngles [c]).count '&' ∧
      (escapeText [c]).count '&' ≤ (escapeAngles [c]).count '&' := by
    by_cases hc : c = '&'
    · subst hc
      decide
    · rw [escapeAngles_singleton hc, List.count_eq_zero.2 (by simpa using Ne.symm hc)]
      exact ⟨Nat.zero_le _, Nat.le_refl _⟩
  induction h with
  | nil => exact Nat.le_refl _
  | @kept c s written _ ih =>
    have hkept := (hfirst c).1
    rw [← List.singleton_append, ← List.singleton_append (l := s), escapeAngles_append,
      List.count_append, List.count_append]
    omega
  | @escaped c s written _ ih =>
    have hescaped := (hfirst c).2
    rw [← List.singleton_append (l := s), escapeAngles_append, List.count_append,
      List.count_append]
    omega

/-- What the rules make of escaped text is more than escaping wherever one of them matches. -/
theorem partiallyEscaped_html_apply_iff (s : Text) :
    PartiallyEscaped s (Typography.RuleSet.html.apply (escapeAngles s)) ↔
      ∀ rule ∈ Typography.RuleSet.html, rule.IsSilent none (escapeAngles s) := by
  constructor
  · intro hescaped
    by_contra hmatch
    exact Nat.not_lt.2 hescaped.count_le (Typography.count_lt_html_apply hmatch)
  · intro hsilent
    rw [Typography.RuleSet.apply_of_isSilent hsilent]
    exact partiallyEscaped_escapeAngles s

namespace Html

theorem length_lengthen (s : Text) (nodes : List Text) :
    (lengthen s nodes).length = max 1 nodes.length := by
  cases nodes <;> simp [lengthen]

section

variable {ends : Token → Bool} (htextual : ∀ token, token.isTextual = true → ends token = false)

include htextual

/-- Text tokens together are one node at most. -/
theorem length_stretches_append_le {held : List Token} (hheld : Textual held) (tokens : List Token) :
    (stretches ends (held ++ tokens)).1.length ≤ max 1 (stretches ends tokens).1.length := by
  induction held with
  | nil => exact Nat.le_max_right _ _
  | cons token held ih =>
    obtain ⟨htoken, hheld⟩ := List.forall_mem_cons.1 hheld
    simp only [List.cons_append, stretches, htextual token htoken, htoken, Bool.false_eq_true,
      if_false, if_true, length_lengthen]
    have hlater := ih hheld
    omega

/-- The body of an element without markup is not cut. -/
theorem Orderly.length_nodes_le (htag : ∀ token, token.isTag = true → ends token = true)
    {tokens : List Token} (h : Orderly tokens) :
    ∀ stretch ∈ (stretches ends tokens).2, stretch.mark.opens?.isSome = true →
      stretch.nodes.length ≤ 1 := by
  induction h with
  | nil => simp [stretches]
  | @cons token later _ hopens _ ih =>
    unfold stretches
    split
    · exact List.forall_mem_cons.2 ⟨fun hsome => by simp [hopens] at hsome, ih⟩
    · split <;> exact ih
  | @element start stop name held later _ hopens hheld _ _ hcloses _ ih =>
    obtain ⟨attributes, rfl, -⟩ := Token.exists_of_opens? hopens
    obtain ⟨dropped, selfClosing, rfl⟩ := Token.exists_of_closes? hcloses
    let stop := Token.endTag name dropped selfClosing
    have hend : stretches ends (stop :: later) =
        ([], ⟨stop, (stretches ends later).1⟩ :: (stretches ends later).2) := by
      rw [stretches, if_pos (htag _ rfl)]
    have hbody := length_stretches_append_le htextual hheld (stop :: later)
    rw [hend] at hbody
    rw [stretches, if_pos (htag _ rfl), (stretches_append htextual hheld _).1, hend]
    refine List.forall_mem_cons.2 ⟨fun _ => by simpa using hbody, List.forall_mem_cons.2 ⟨?_, ih⟩⟩
    intro hsome
    contradiction
  | @cutOff start name held _ hopens hheld _ _ =>
    obtain ⟨attributes, rfl, -⟩ := Token.exists_of_opens? hopens
    have hbody := length_stretches_append_le htextual hheld []
    have hrest := (stretches_append htextual hheld []).1
    rw [List.append_nil] at hbody hrest
    rw [stretches, if_pos (htag _ rfl), hrest]
    exact List.forall_mem_singleton.2 fun _ => by simpa [stretches] using hbody

end

theorem writeNodes_of_length_le {σ : Type} {style : Style σ} (hescape : style.escape [] = [])
    (place : Place σ) {nodes : List Text} (hnodes : nodes.length ≤ 1) :
    style.writeNodes place nodes = style.writeText place nodes.flatten := by
  obtain rfl | ⟨node, rfl⟩ : nodes = [] ∨ ∃ node, nodes = [node] := by
    rwa [Nat.le_one_iff_eq_zero_or_eq_one, List.length_eq_zero_iff, List.length_eq_one_iff] at hnodes
  · simp [Style.writeNodes, Style.writeText_nil hescape]
  · simp [Style.writeNodes]

theorem exists_of_opensRawText {tag : Token} (hraw : tag.opensRawText = true) :
    ∃ name attributes, tag = .startTag name attributes false ∧
      (contentModel? name = some .script ∨ contentModel? name = some .rawText) := by
  obtain ⟨name, hopens, hmodel⟩ := (Option.any_eq_true _ _).1 hraw
  obtain ⟨attributes, rfl, hsome⟩ := Token.exists_of_opens? hopens
  obtain ⟨model, hfound⟩ := Option.isSome_iff_exists.1 hsome
  refine ⟨name, attributes, rfl, ?_⟩
  cases model with
  | script => exact .inl hfound
  | rawText => exact .inr hfound
  | escapableText => simp [hfound] at hmodel

/-- The elements that hold raw text and open no skip zone. -/
def unshelteredNames : List Text := ["xmp", "iframe", "noembed", "noframes"].map String.toList

theorem mem_unshelteredNames {name : Text}
    (hmodel : contentModel? name = some .script ∨ contentModel? name = some .rawText)
    (hname : name ∉ SkipSet.html) : name ∈ unshelteredNames := by
  have hspelled {spelled : String} (heq : String.ofList name = spelled) : name = spelled.toList := by
    rw [← heq, String.toList_ofList]
  unfold contentModel? at hmodel
  split at hmodel
  case h_1 heq | h_2 heq =>
    rw [hspelled heq] at hname
    exact absurd (by decide) hname
  case h_3 heq | h_4 heq | h_5 heq | h_6 heq =>
    rw [hspelled heq]
    decide
  case h_7 | h_8 | h_9 => simp at hmodel

/-- The start tag of an element in the skip set leaves a zone active. -/
theorem isActive_of_mem_skipSet {tags : List Token} {i : Nat} {name : Text}
    {attributes : List Attribute} (htag : tags[i]? = some (.startTag name attributes false))
    (hname : name ∈ SkipSet.html) :
    ((tags.take (i + 1)).foldl zoneAfter {}).isActive = true := by
  have hopened : (tags.take (i + 1)).foldl zoneAfter {} =
      (TextPolicy.skipping .html).opened name ((tags.take i).foldl zoneAfter {}) := by
    simp only [List.take_add_one, htag, List.foldl_append]
    rfl
  rw [hopened, TextPolicy.isActive_opened, decide_eq_true hname, Bool.or_true]

/-- The body of a raw text element is written in one piece. -/
theorem getElem?_spans_stored_of_opensRawText {input : Text} {i : Nat} {span : Span}
    (hspan : (cut (tokenize input)).2[i]? = some span) (hraw : span.tag.opensRawText = true) :
    let place := ((tags (tokenize input)).take (i + 1)).foldl stored.after stored.start
    (stored.spans input)[i]? = some ⟨span.tag, stored.writeText place span.text⟩ := by
  obtain ⟨stretch, hstretch, rfl⟩ :
      ∃ stretch, (stretches stored.keeps (tokenize input)).2[i]? = some stretch ∧
        ⟨stretch.mark, stretch.nodes.flatten⟩ = span := by
    rwa [cut, ← keeps_stored, spansAt_eq_stretches, List.getElem?_map,
      Option.map_eq_some_iff] at hspan
  have hnodes : stretch.nodes.length ≤ 1 := by
    refine (orderly_tokenize input).length_nodes_le (fun _ => stored.keeps_of_isTextual)
      (fun _ htoken => htoken) stretch (List.mem_of_getElem? hstretch) ?_
    obtain ⟨_, hopens, -⟩ := (Option.any_eq_true _ _).1 hraw
    exact Option.isSome_of_mem hopens
  have hbare : stretch.mark.bare = stretch.mark := by
    obtain ⟨name, attributes, hmark, -⟩ := exists_of_opensRawText hraw
    have hstart : stretch.mark = .startTag name attributes false := hmark
    rw [hstart]
    rfl
  rw [Style.spans, Style.source, List.getElem?_map, Style.getElem?_placed,
    map_mark_stretches_stored, hstretch, Option.map_some, Option.map_some, Style.span,
    adjusted_stored, hbare, writeNodes_of_length_le rfl _ hnodes]

/-- The body of a raw text element is written as one text, typographed where no skip zone shelters it,
    which only four of the elements leave open. It differs from the body that was read by partial
    escaping alone if and only if it is sheltered or no rule matches anywhere in it. -/
theorem typographStored_raw_body {input : Text} {i : Nat} {span : Span}
    (hspan : (cut (tokenize input)).2[i]? = some span) (hraw : span.tag.opensRawText = true) :
    let zone := ((tags (tokenize input)).take (i + 1)).foldl zoneAfter {}
    ∃ name attributes written, span.tag = .startTag name attributes false ∧
      (contentModel? name = some .script ∨ contentModel? name = some .rawText) ∧
      typographStored input = stored.lead input ++ (stored.spans input).flatMap Span.write ∧
      (stored.spans input)[i]? = some ⟨span.tag, written⟩ ∧
      (zone.isActive = true → written = escapeText span.text) ∧
      (zone.isActive = false → name ∈ unshelteredNames ∧
        written = Typography.RuleSet.html.apply (escapeAngles span.text)) ∧
      (PartiallyEscaped span.text written ↔ zone.isActive = true ∨
        ∀ rule ∈ Typography.RuleSet.html, rule.IsSilent none (escapeAngles span.text)) := by
  intro zone
  obtain ⟨name, attributes, htag, hmodel⟩ := exists_of_opensRawText hraw
  have hlast : (tags (tokenize input))[i]? = some (.startTag name attributes false) := by
    rw [← map_tag_cut, List.getElem?_map, hspan]
    exact congrArg some htag
  have hsheltered : zone.isActive = false → name ∈ unshelteredNames := by
    intro hactive
    refine mem_unshelteredNames hmodel fun hname => ?_
    rw [isActive_of_mem_skipSet hlast hname] at hactive
    contradiction
  let place := ((tags (tokenize input)).take (i + 1)).foldl stored.after stored.start
  have hplace : place.policyState = zone := policyState_foldl_after_stored _ _
  have hwritten := getElem?_spans_stored_of_opensRawText hspan hraw
  have htext := writeText_stored place span.text
  rw [hplace] at htext
  refine ⟨name, attributes, _, htag, hmodel, typographStored_eq_spans input, hwritten, ?_, ?_, ?_⟩
  · intro hactive
    rw [htext, if_pos hactive]
  · intro hactive
    rw [htext, if_neg (by simp [hactive])]
    exact ⟨hsheltered hactive, rfl⟩
  · rw [htext]
    split
    · next hactive => simp [hactive, partiallyEscaped_escapeText]
    · next hactive => simp [hactive, partiallyEscaped_html_apply_iff]

theorem typographStored_raw_body_unsheltered :
    let input := "<p>a - b<iframe><b>--&amp;".toList
    let body : Span := ⟨.startTag "iframe".toList [] false, "<b>--&amp;".toList⟩
    (cut (tokenize input)).2[1]? = some body ∧ body.tag.opensRawText = true ∧
      ∃ written, (stored.spans input)[1]? = some ⟨body.tag, written⟩ ∧
        PartiallyEscaped body.text written := by
  intro input body
  have hbody : (cut (tokenize input)).2[1]? = some body := by decide +kernel
  obtain ⟨-, -, written, -, -, -, hwritten, -, -, hescaped⟩ := typographStored_raw_body hbody rfl
  have hsilent : ∀ rule ∈ Typography.RuleSet.html, rule.IsSilent none (escapeAngles body.text) := by
    decide +kernel
  exact ⟨hbody, rfl, written, hwritten, hescaped.2 (.inr hsilent)⟩

/-- A sample of program text is typographed, and its readers see the references as they are written. -/
theorem typographStored_changes_raw_body :
    let input := "<xmp>a - b</xmp>".toList
    let sample := Token.startTag "xmp".toList [] false
    (cut (tokenize input)).2[0]? = some ⟨sample, "a - b".toList⟩ ∧ sample.opensRawText = true ∧
      typographStored input = "<xmp>a&nbsp;&mdash; b</xmp>".toList ∧
      (cut (tokenize (typographStored input))).2[0]? =
        some ⟨sample, "a&nbsp;&mdash; b".toList⟩ ∧
      ¬ PartiallyEscaped "a - b".toList "a&nbsp;&mdash; b".toList := by
  refine ⟨by decide +kernel, rfl, by decide +kernel, by decide +kernel, fun hescaped => ?_⟩
  exact absurd hescaped.count_le (by decide)

end Html

end PostMarkup
