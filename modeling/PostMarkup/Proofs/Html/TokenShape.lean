import PostMarkup.Proofs.Html.RawText

namespace PostMarkup.Html

/-- Text that an element may hold whose content is written as it is. -/
def Confined (name text : Text) (closed : Bool) : Prop :=
  ∀ model ∈ contentModel? name, model ≠ .escapableText →
    Encloses model name text closed ∧ '\r' ∉ text

/-- Tokens in an order in which reading gives them. -/
inductive Orderly : List Token → Prop
  | nil : Orderly []
  | cons {token : Token} {later : List Token} (htoken : token.WellFormed)
    (hopens : token.opens? = none) (hlater : Orderly later) : Orderly (token :: later)
  | element {start stop : Token} {name : Text} {held later : List Token} (hstart : start.WellFormed)
    (hopens : start.opens? = some name) (hheld : Textual held)
    (hformed : ∀ token ∈ held, token.WellFormed)
    (hconfined : Confined name (held.flatMap Token.chars) true)
    (hcloses : stop.closes? = some name) (hlater : Orderly later) :
    Orderly (start :: (held ++ stop :: later))
  | cutOff {start : Token} {name : Text} {held : List Token} (hstart : start.WellFormed)
    (hopens : start.opens? = some name) (hheld : Textual held)
    (hformed : ∀ token ∈ held, token.WellFormed)
    (hconfined : Confined name (held.flatMap Token.chars) false) : Orderly (start :: held)

theorem Orderly.textual_append {found later : List Token} (hfound : Textual found)
    (hformed : ∀ token ∈ found, token.WellFormed) (hlater : Orderly later) :
    Orderly (found ++ later) := by
  induction found with
  | nil => exact hlater
  | cons token found ih =>
    obtain ⟨htoken, hfound⟩ := List.forall_mem_cons.1 hfound
    obtain ⟨hfirst, hformed⟩ := List.forall_mem_cons.1 hformed
    exact .cons hfirst (Token.opens?_of_isTextual htoken) (ih hfound hformed)

theorem Token.exists_of_opens? {start : Token} {name : Text} (hopens : start.opens? = some name) :
    ∃ attributes, start = .startTag name attributes false ∧ (contentModel? name).isSome := by
  unfold opens? at hopens
  split at hopens
  · split at hopens
    · next hmodel =>
      obtain rfl := Option.some.inj hopens
      exact ⟨_, rfl, hmodel⟩
    · contradiction
  · contradiction

/-- The name of an element without markup is a tag name, since its start tag has it. -/
theorem Token.isTagName_of_opens? {start : Token} {name : Text} (hstart : start.WellFormed)
    (hopens : start.opens? = some name) : IsTagName name := by
  obtain ⟨attributes, rfl, -⟩ := exists_of_opens? hopens
  exact hstart.name

theorem suffix_of_takes {s rest : Text} (h : Reference.Takes s rest) : rest <:+ s := by
  obtain ⟨taken, rfl, -⟩ := h
  exact List.suffix_append taken rest

/-- Content that holds text alone, and ends at a place in the text. -/
structure Content.Sound (content : Content) (model : ContentModel) (name s : Text) : Prop where
  textual : Textual content.tokens
  formed : ∀ token ∈ content.tokens, token.WellFormed
  tail : ∀ tail ∈ content.tail?, tail <:+ s
  encloses : model ≠ .escapableText →
    Encloses model name (content.tokens.flatMap Token.chars) content.tail?.isSome
  noReturn : model ≠ .escapableText → '\r' ∉ s → '\r' ∉ content.tokens.flatMap Token.chars

theorem suffix_of_afterEndTagName? {name s tail : Text} (htail : afterEndTagName? name s = some tail) :
    tail <:+ s := by
  unfold afterEndTagName? at htail
  split at htail
  · next s =>
    split at htail
    · next rest hafter =>
      obtain ⟨found, rfl, -⟩ := Text.exists_of_afterAnyCase? hafter
      split at htail
      · obtain rfl := Option.some.inj htail
        exact ⟨'<' :: '/' :: found, rfl⟩
      · contradiction
    · contradiction
  · contradiction

theorem Content.Sound.prepend {content : Content} {name s t : Text} {tokens : List Token}
    (h : content.Sound .escapableText name s) (hsuffix : s <:+ t) (htokens : Textual tokens)
    (hformed : ∀ token ∈ tokens, token.WellFormed) :
    (content.prepend tokens).Sound .escapableText name t where
  textual := htokens.append h.textual
  formed := List.forall_mem_append.2 ⟨hformed, h.formed⟩
  tail tail htail := (h.tail tail htail).trans hsuffix
  encloses hmodel := absurd rfl hmodel
  noReturn hmodel := absurd rfl hmodel

theorem sound_escapableText (name s : Text) : (escapableText name s).Sound .escapableText name s := by
  fun_induction escapableText name s with
  | case1 => exact ⟨textual_nil, by simp, by simp, by simp, by simp⟩
  | case2 s found ih =>
    have hsuffix := suffix_of_takes (Reference.takes_read .runningText s)
    exact ih.prepend (hsuffix.trans (List.suffix_cons _ _)) (textual_referenceTokens _)
      (wellFormed_referenceTokens .runningText s)
  | case3 c s _ tail htail =>
    exact ⟨textual_nil, by simp, by simpa using suffix_of_afterEndTagName? htail, by simp, by simp⟩
  | case4 c s _ _ ih =>
    exact ih.prepend (List.suffix_cons c s) (textual_contentTokens c) (wellFormed_contentTokens c)

theorem sound_readContent {model : ContentModel} {name : Text}
    (hcontent : contentModel? name = some model) (s : Text) :
    (readContent model name s).Sound model name s := by
  by_cases hmodel : model = .escapableText
  · subst hmodel
    exact sound_escapableText name s
  · obtain ⟨body, rest, rfl, htokens, htail, hencloses⟩ := exists_readContent hmodel hcontent s
    refine ⟨?_, ?_, fun tail hmem => ?_, fun _ => ?_, fun _ hs => ?_⟩
    · rw [htokens]
      exact textual_flatMap_contentTokens body
    · rw [htokens]
      intro token htoken
      obtain ⟨c, -, htoken⟩ := List.mem_flatMap.1 htoken
      exact wellFormed_contentTokens c token htoken
    · exact (suffix_of_afterEndTagName? (htail tail hmem)).trans (List.suffix_append body rest)
    · rwa [htokens, chars_flatMap_contentTokens]
    · rw [htokens, chars_flatMap_contentTokens]
      exact not_mem_map_visible (by decide) (by decide) fun hmem => hs (by simp [hmem])

/-- A construct whose tokens can be written and followed by those of the text after it. -/
structure Construct.Sound (construct : Construct) (s : Text) : Prop where
  rest : construct.rest <:+ s
  orderly : ∀ later, Orderly later → (construct.rest = [] → later = []) →
    Orderly (construct.tokens ++ later)

/-- A construct of tokens that begin no element without markup. -/
theorem Construct.Sound.of_opens? {construct : Construct} {s : Text}
    (htokens : ∀ token ∈ construct.tokens, token.WellFormed ∧ token.opens? = none)
    (hrest : construct.rest <:+ s) : construct.Sound s := by
  refine ⟨hrest, fun later hlater _ => ?_⟩
  generalize construct.tokens = tokens at htokens
  induction tokens with
  | nil => exact hlater
  | cons token tokens ih =>
    obtain ⟨⟨htoken, hopens⟩, htokens⟩ := List.forall_mem_cons.1 htokens
    exact .cons htoken hopens (ih htokens)

theorem Construct.Sound.mono {construct : Construct} {s t : Text} (h : construct.Sound s)
    (hsuffix : s <:+ t) : construct.Sound t :=
  { h with rest := h.rest.trans hsuffix }

theorem suffix_commentBody (s : Text) : (commentBody s).2 <:+ s := by
  fun_induction commentBody s with
  | case2 s => exact ⟨"-->".toList, rfl⟩
  | case3 s => exact ⟨"--!>".toList, rfl⟩
  | case7 c s _ _ _ _ _ body rest hbody ih =>
    rw [hbody] at ih
    exact ih.trans (List.suffix_cons c s)
  | _ => exact List.nil_suffix

theorem suffix_afterAngle (s : Text) : afterAngle s <:+ s :=
  (List.tail_suffix _).trans (List.dropWhile_suffix _)

theorem sound_readComment {s : Text} (hs : '\r' ∉ s) : (readComment s).Sound s := by
  unfold readComment
  split
  · exact .of_opens? (by simpa [Token.WellFormed, Token.opens?] using isCommentContent_nil)
      (List.suffix_cons _ _)
  · exact .of_opens? (by simpa [Token.WellFormed, Token.opens?] using isCommentContent_nil)
      ((List.suffix_cons _ _).trans (List.suffix_cons _ _))
  · next hangle hhyphen =>
    have hcontent := isCommentContent_of_commentBody hs hangle hhyphen
    exact .of_opens? (by simpa [Token.WellFormed, Token.opens?] using hcontent) (suffix_commentBody s)

theorem sound_bogusComment {s : Text} (hs : '\r' ∉ s) : (bogusComment s).Sound s := by
  have hcontent := isCommentContent_takeWhile hs
  exact .of_opens? (by simpa [bogusComment, Token.WellFormed, Token.opens?] using hcontent)
    (suffix_afterAngle s)

theorem sound_readDeclaration {s : Text} (hs : '\r' ∉ s) : (readDeclaration s).Sound s := by
  unfold readDeclaration
  split
  · next body hafter =>
    obtain rfl := Text.after?_eq_some_iff.1 hafter
    exact (sound_readComment fun hmem => hs (by simp [hmem])).mono (List.suffix_append _ _)
  · next body _ hafter =>
    obtain ⟨found, rfl, -⟩ := Text.exists_of_afterAnyCase? hafter
    exact .of_opens? (by simp [Token.WellFormed, Token.opens?])
      ((suffix_afterAngle body).trans (List.suffix_append _ _))
  · exact sound_bogusComment hs

theorem sound_readElement {tag : Tag} {s : Text}
    (htag : WellFormedTag tag.name (distinctKeys [] tag.attributes)) (hrest : tag.rest <:+ s)
    (hs : '\r' ∉ s) : (readElement tag).Sound s := by
  simp only [readElement]
  split
  · next hmodel =>
    have hopens : (Token.startTag tag.name (distinctKeys [] tag.attributes) tag.selfClosing).opens? =
        none := by
      cases hself : tag.selfClosing <;> simp_all [Token.opens?]
    exact ⟨hrest, fun later hlater _ => .cons htag hopens hlater⟩
  · next model hmodel =>
    have hself : tag.selfClosing = false := by
      cases hself : tag.selfClosing <;> simp_all
    have hcontent : contentModel? tag.name = some model := by simpa [hself] using hmodel
    have hopens : (Token.startTag tag.name (distinctKeys [] tag.attributes) tag.selfClosing).opens? =
        some tag.name := by
      simp [Token.opens?, hself, hcontent]
    have hsound := sound_readContent hcontent tag.rest
    have hconfined {closed : Bool} (hclosed : closed = true →
        (readContent model tag.name tag.rest).tail?.isSome) :
        Confined tag.name ((readContent model tag.name tag.rest).tokens.flatMap Token.chars) closed := by
      intro other hother hverbatim
      obtain rfl : model = other := Option.some.inj (hcontent.symm.trans hother)
      obtain ⟨cover, hcover, hhides⟩ := hsound.encloses hverbatim
      exact ⟨⟨cover, hcover, fun htrue => hhides (hclosed htrue)⟩,
        hsound.noReturn hverbatim fun hmem => hs (hrest.subset hmem)⟩
    split
    · next tagEnd htail =>
      obtain ⟨tail, htail, hread⟩ := Option.bind_eq_some_iff.1 htail
      have hsuffix := (hsound.tail tail htail).trans hrest
      obtain ⟨-, hend⟩ := of_readTagEnd? (fun hmem => hs (hsuffix.subset hmem)) hread
      refine ⟨hend.trans hsuffix, fun later hlater _ => ?_⟩
      have hstart : (Token.startTag tag.name (distinctKeys [] tag.attributes)
          tag.selfClosing).WellFormed := htag
      simpa using Orderly.element hstart hopens hsound.textual hsound.formed
        (hconfined fun _ => Option.isSome_of_mem htail) rfl hlater
    · refine ⟨List.nil_suffix, fun later _ hnil => ?_⟩
      rw [hnil rfl, List.append_nil]
      exact .cutOff htag hopens hsound.textual hsound.formed (hconfined (by simp))

theorem sound_readEndTag {s : Text} (hs : '\r' ∉ s) : (readEndTag s).Sound s := by
  unfold readEndTag
  split
  · exact .of_opens? (by simp [Token.WellFormed, Token.opens?]) List.nil_suffix
  · exact .of_opens? (by simp [Token.WellFormed, Token.opens?]) (List.suffix_cons _ _)
  · next c s _ =>
    split
    · next hletter =>
      split
      · next tag hread =>
        obtain ⟨htag, hrest⟩ := of_readTag? hs (by simpa using hletter) hread
        exact .of_opens? (by simpa [Token.WellFormed, Token.opens?] using htag.name) hrest
      · exact .of_opens? (by simp) List.nil_suffix
    · exact sound_bogusComment hs

theorem sound_readMarkup {s : Text} (hs : '\r' ∉ s) : (readMarkup s).Sound s := by
  unfold readMarkup
  split
  · exact (sound_readDeclaration fun hmem => hs (by simp [hmem])).mono (List.suffix_cons _ _)
  · exact (sound_readEndTag fun hmem => hs (by simp [hmem])).mono (List.suffix_cons _ _)
  · exact sound_bogusComment hs
  · next c s _ _ _ =>
    split
    · next hletter =>
      split
      · next tag hread =>
        obtain ⟨htag, hrest⟩ := of_readTag? hs (by simpa using hletter) hread
        exact sound_readElement htag hrest hs
      · exact .of_opens? (by simp) List.nil_suffix
    · exact .of_opens? (by simp [Token.WellFormed, Token.opens?]) List.suffix_rfl
  · exact .of_opens? (by simp [Token.WellFormed, Token.opens?]) List.suffix_rfl

theorem orderly_tokens {s : Text} (hs : '\r' ∉ s) : Orderly (tokens s) := by
  fun_induction tokens s with
  | case1 => exact .nil
  | case2 s construct ih =>
    have hsound : construct.Sound s := sound_readMarkup fun hmem => hs (by simp [hmem])
    have hrest : '\r' ∉ construct.rest := fun hmem => hs (by simp [hsound.rest.subset hmem])
    refine hsound.orderly _ (ih hrest) fun hnil => ?_
    rw [hnil, tokens]
  | case3 s found ih =>
    have hsuffix := suffix_of_takes (Reference.takes_read .runningText s)
    exact .textual_append (textual_referenceTokens found) (wellFormed_referenceTokens .runningText s)
      (ih fun hmem => hs (by simp [hsuffix.subset hmem]))
  | case4 c s _ _ ih =>
    refine .textual_append ?_ ?_ (ih fun hmem => hs (by simp [hmem]))
    · split <;> simp [Textual, Token.isTextual]
    · split
      · simp [Token.WellFormed]
      · next hc => simpa [Token.WellFormed] using Ne.symm hc

theorem orderly_tokenize (input : Text) : Orderly (tokenize input) :=
  orderly_tokens (not_mem_normaliseLineEnds input.dropByteOrderMark)

theorem Orderly.wellFormed {tokens : List Token} (h : Orderly tokens) :
    ∀ token ∈ tokens, token.WellFormed := by
  induction h with
  | nil => simp
  | cons htoken _ _ ih => exact List.forall_mem_cons.2 ⟨htoken, ih⟩
  | element hstart hopens _ hformed _ hcloses _ ih =>
    obtain ⟨attributes, selfClosing, rfl⟩ := Token.exists_of_closes? hcloses
    have hend := Token.isTagName_of_opens? hstart hopens
    exact List.forall_mem_cons.2
      ⟨hstart, List.forall_mem_append.2 ⟨hformed, List.forall_mem_cons.2 ⟨hend, ih⟩⟩⟩
  | cutOff hstart _ _ hformed _ => exact List.forall_mem_cons.2 ⟨hstart, hformed⟩

/-- Tags that can follow each other. Inside an element that holds no markup only its own end tag is
    one. -/
def Fits : Option Text → List Token → Prop
  | _, [] => True
  | none, tag :: tags => Fits tag.opens? tags
  | some name, tag :: tags => tag.closes? = some name ∧ Fits none tags

/-- The marks of what is read come in such an order, whether comments are counted or not. -/
theorem Orderly.fits_filter {ends : Token → Bool}
    (htextual : ∀ token, token.isTextual = true → ends token = false)
    (htag : ∀ token, token.isTag = true → ends token = true) {tokens : List Token}
    (h : Orderly tokens) : Fits none (tokens.filter ends) := by
  have hheld {held : List Token} (hheld : Textual held) : held.filter ends = [] :=
    List.filter_eq_nil_iff.2 fun token htoken => by simp [htextual token (hheld token htoken)]
  induction h with
  | nil => trivial
  | @cons token later _ hopens _ ih =>
    by_cases hend : ends token
    · rw [List.filter_cons_of_pos hend]
      simpa [Fits, hopens] using ih
    · rwa [List.filter_cons_of_neg hend]
  | element _ hopens htext _ _ hcloses _ ih =>
    obtain ⟨attributes, rfl, -⟩ := Token.exists_of_opens? hopens
    obtain ⟨attributes, selfClosing, rfl⟩ := Token.exists_of_closes? hcloses
    rw [List.filter_cons_of_pos (htag _ rfl), List.filter_append, hheld htext, List.nil_append,
      List.filter_cons_of_pos (htag _ rfl)]
    simpa [Fits, hopens, hcloses] using ih
  | cutOff _ hopens htext _ _ =>
    obtain ⟨attributes, rfl, -⟩ := Token.exists_of_opens? hopens
    rw [List.filter_cons_of_pos (htag _ rfl), hheld htext]
    trivial

end PostMarkup.Html
