import PostMarkup.Proofs.Html.WrittenText

namespace PostMarkup.Html

/-- A tag, and the text from there to the next tag. Where comments count as well, what begins a span
    may be a comment, and ends one. -/
structure Span where
  tag : Token
  text : Text
deriving DecidableEq

/-- Text and spans, as tokens of some kind cut them. Other tokens that are no text are left out. -/
def spansAt (ends : Token → Bool) : List Token → Text × List Span
  | [] => ([], [])
  | token :: tokens =>
    let later := spansAt ends tokens
    if ends token then ([], ⟨token, later.1⟩ :: later.2) else (token.chars ++ later.1, later.2)

/-- The text before the first tag, and the spans from that tag on. Comments do not count, so text on
    both sides of one is one text here. -/
def cut (tokens : List Token) : Text × List Span := spansAt Token.isTag tokens

/-- The text before the first mark, and the spans from that mark on. Comments are kept, and so is
    all text; document types, U+0000 and parse errors are left out. -/
def outline (tokens : List Token) : Text × List Span := spansAt Token.isMark tokens

theorem spansAt_cons {ends : Token → Bool} {token : Token} (htoken : ends token = true)
    (tokens : List Token) :
    spansAt ends (token :: tokens) =
      ([], ⟨token, (spansAt ends tokens).1⟩ :: (spansAt ends tokens).2) := by
  simp only [spansAt, htoken, if_true]

theorem map_tag_spansAt (ends : Token → Bool) (tokens : List Token) :
    (spansAt ends tokens).2.map Span.tag = tokens.filter ends := by
  induction tokens with
  | nil => rfl
  | cons token tokens ih =>
    by_cases htoken : ends token
    · rw [spansAt_cons htoken, List.map_cons, ih, List.filter_cons_of_pos htoken]
    · simpa [spansAt, htoken] using ih

theorem map_tag_cut (tokens : List Token) : (cut tokens).2.map Span.tag = tags tokens :=
  map_tag_spansAt Token.isTag tokens

theorem map_tag_outline (tokens : List Token) :
    (outline tokens).2.map Span.tag = tokens.filter Token.isMark :=
  map_tag_spansAt Token.isMark tokens

theorem spansAt_append {ends : Token → Bool} {found : List Token}
    (hfound : ∀ token ∈ found, ends token = false) (tokens : List Token) :
    spansAt ends (found ++ tokens) =
      (found.flatMap Token.chars ++ (spansAt ends tokens).1, (spansAt ends tokens).2) := by
  induction found with
  | nil => rfl
  | cons token found ih =>
    obtain ⟨htoken, hfound⟩ := List.forall_mem_cons.1 hfound
    simp [spansAt, htoken, ih hfound]

/-- Text and spans hold only characters of the tokens. -/
theorem not_mem_spansAt (ends : Token → Bool) {c : Char} {tokens : List Token}
    (htokens : ∀ token ∈ tokens, c ∉ token.chars) :
    c ∉ (spansAt ends tokens).1 ∧ ∀ span ∈ (spansAt ends tokens).2, c ∉ span.text := by
  induction tokens with
  | nil => simp [spansAt]
  | cons token tokens ih =>
    obtain ⟨htoken, hlater⟩ := List.forall_mem_cons.1 htokens
    obtain ⟨hlead, hspans⟩ := ih hlater
    by_cases hend : ends token
    · rw [spansAt_cons hend]
      exact ⟨by simp, List.forall_mem_cons.2 ⟨hlead, hspans⟩⟩
    · simpa [spansAt, hend, htoken, hlead] using hspans

def Token.write : Token → Text
  | .startTag name attributes selfClosing => (Piece.startTag name attributes selfClosing).write
  | .endTag name _ _ => (Piece.endTag name).write
  | .comment content => (Piece.comment content).write
  | token => token.chars

def Span.write (span : Span) : Text := span.tag.write ++ span.text

/-- The tokens of the text after a tag, given the element without markup that begins there. -/
def tokensInside : Option Text → Text → List Token
  | none, s => tokens s
  | some name, s =>
    match contentModel? name with
    | none => tokens s
    | some model =>
      let content := readContent model name s
      match content.tail?.bind readTagEnd? with
      | some tagEnd =>
        content.tokens ++ .endTag name (distinctKeys [] tagEnd.attributes) tagEnd.selfClosing ::
          tokens tagEnd.rest
      | none => content.tokens

theorem tokens_nil : tokens [] = [] := by
  rw [tokens]

theorem tokens_angle (s : Text) :
    tokens ('<' :: s) = (readMarkup s).tokens ++ tokens (readMarkup s).rest := by
  rw [tokens]

theorem readMarkup_of_readTag? {s : Text} {tag : Tag} (hletter : s.head?.any Char.isAlpha)
    (hread : readTag? s = some tag) : readMarkup s = readElement tag := by
  unfold readMarkup
  split
  · contradiction
  · contradiction
  · contradiction
  · next c s _ _ _ =>
    rw [if_pos (by simpa using hletter), hread]
  · contradiction

theorem readEndTag_of_readTag? {s : Text} {tag : Tag} (hletter : s.head?.any Char.isAlpha)
    (hread : readTag? s = some tag) :
    readEndTag s =
      ⟨[.endTag tag.name (distinctKeys [] tag.attributes) tag.selfClosing], tag.rest⟩ := by
  unfold readEndTag
  split
  · contradiction
  · contradiction
  · rw [if_pos (by simpa using hletter), hread]

theorem head?_append_of_isTagName {name : Text} (hname : IsTagName name) (s : Text) :
    (name ++ s).head?.any Char.isAlpha := by
  have hletter := hname.letter
  cases name with
  | nil => contradiction
  | cons c name => simpa using hletter

theorem tokens_endTag {name : Text} (hname : IsTagName name) (s : Text) :
    tokens ((Piece.endTag name).write ++ s) = .endTag name [] false :: tokens s := by
  have htag : WellFormedTag name [] := ⟨hname, by simp, by simp, by simp⟩
  have hread : readTag? (name ++ '>' :: s) = some ⟨⟨[], false, s⟩, name⟩ := by
    simpa [tagClose] using readTag?_written htag false s
  rw [write_endTag_append, tokens_angle, readMarkup,
    readEndTag_of_readTag? (head?_append_of_isTagName hname _) hread]
  rfl

theorem tokens_startTag {name : Text} {attributes : List Attribute}
    (htag : WellFormedTag name attributes) (selfClosing : Bool) (s : Text) :
    tokens ((Piece.startTag name attributes selfClosing).write ++ s) =
      .startTag name attributes selfClosing ::
        tokensInside (Token.startTag name attributes selfClosing).opens? s := by
  have hwritten : (Piece.startTag name attributes selfClosing).write ++ s =
      '<' :: (name ++ attributes.flatMap writeAttribute ++ tagClose selfClosing ++ s) := by
    simp [Piece.write, tagClose]
  have hletter : (name ++ attributes.flatMap writeAttribute ++ tagClose selfClosing ++ s).head?.any
      Char.isAlpha := by
    simpa using head?_append_of_isTagName htag.name
      (attributes.flatMap writeAttribute ++ (tagClose selfClosing ++ s))
  have hdistinct : distinctKeys [] attributes = attributes :=
    distinctKeys_of_nodup htag.distinct (by simp)
  rw [hwritten, tokens_angle, readMarkup_of_readTag? hletter (readTag?_written htag selfClosing s)]
  simp only [readElement, hdistinct]
  cases selfClosing with
  | true => rfl
  | false =>
    cases hmodel : contentModel? name with
    | none => simp [Token.opens?, hmodel, tokensInside]
    | some model =>
      simp only [Token.opens?, hmodel, Option.isSome_some, if_true, tokensInside, Bool.false_eq_true,
        if_false]
      cases (readContent model name s).tail?.bind readTagEnd? with
      | none => simp [tokens_nil]
      | some tagEnd => simp

theorem tokens_comment {content : Text} (hcontent : IsCommentContent content) (s : Text) :
    tokens ((Piece.comment content).write ++ s) = .comment content :: tokens s := by
  have hwritten : (Piece.comment content).write ++ s =
      '<' :: '!' :: ("--".toList ++ (content ++ '-' :: '-' :: '>' :: s)) := by
    simp [Piece.write]
  rw [hwritten, tokens_angle, readMarkup, readDeclaration, Text.after?_append]
  simp only [readComment_append hcontent, List.singleton_append]

/-- A mark is read at the head of a text, an end tag without what is not written of it, and then
    what its element holds. -/
theorem tokens_write {mark : Token} (hmark : mark.WellFormed) (hisMark : mark.isMark = true)
    (s : Text) : tokens (mark.write ++ s) = mark.bare :: tokensInside mark.opens? s := by
  cases mark with
  | startTag name attributes selfClosing => exact tokens_startTag hmark selfClosing s
  | endTag name => exact tokens_endTag hmark s
  | comment content => exact tokens_comment hmark s
  | _ => contradiction

/-- Whether a tag begins an element in whose text nothing is decoded. -/
def Token.opensRawText (tag : Token) : Bool :=
  tag.opens?.any fun name => contentModel? name ≠ some .escapableText

/-- Written text as it is read in an element. -/
def readText (element? : Option Text) (s : Text) : Text :=
  match element?.bind contentModel? with
  | none => (decodeText s).flatMap withoutNull
  | some .escapableText => (decodeText s).map visible
  | some _ => s.map visible

/-- Text in which nothing is read but text. In an element whose content is written as it is it may
    hold a `<`. -/
inductive Legible (element? : Option Text) (s : Text) (closed : Bool) : Prop
  | text (hs : '<' ∉ s)
  | content {name : Text} {model : ContentModel} (hname : name ∈ element?)
    (hcontent : contentModel? name = some model) (hmodel : model ≠ .escapableText)
    (hencloses : Encloses model name s closed)

/-- What may stand after some text: nothing more, or a mark, and inside an element without markup
    only its end tag. -/
inductive Follows (element? : Option Text) : Bool → Text → Prop
  | nothing : Follows element? false []
  | mark {mark : Token} (hmark : mark.WellFormed) (hisMark : mark.isMark = true)
    (hend : ∀ name ∈ element?, mark.closes? = some name) (s : Text) :
    Follows element? true (mark.write ++ s)

theorem head?_write {mark : Token} (hisMark : mark.isMark = true) : mark.write.head? = some '<' := by
  cases mark with
  | startTag | endTag | comment => rfl
  | _ => contradiction

section

variable {element? : Option Text} {s stop : Text} {closed : Bool}

theorem head?_of_follows (h : Follows element? closed stop) : ∀ c ∈ stop.head?, c = '<' := by
  cases h with
  | nothing => simp
  | mark hmark hisMark hend s => simp [List.head?_append, head?_write hisMark]

/-- The content of an element, up to where it ends. -/
theorem tokensInside_of_readContent {found : List Token} (h : Follows element? closed stop)
    {name : Text} (hname : name ∈ element?) {model : ContentModel}
    (hmodel : contentModel? name = some model)
    (hcontent : readContent model name (s ++ stop) = (readContent model name stop).prepend found) :
    tokensInside element? (s ++ stop) = found ++ tokens stop := by
  obtain rfl : element? = some name := hname
  simp only [tokensInside, hmodel, hcontent]
  cases h with
  | nothing => simp [readContent_nil, Content.prepend, tokens_nil]
  | mark hmark hisMark hend s =>
    obtain ⟨attributes, selfClosing, rfl⟩ := Token.exists_of_closes? (hend name rfl)
    have hangle : readTagEnd? ('>' :: s) = some ⟨[], false, s⟩ := readTagEnd?_angle s
    simp only [Token.write, readContent_endTag hmark, Content.prepend, Option.bind_some, hangle,
      tokens_endTag hmark, List.append_nil, distinctKeys]

/-- The text of a span is read as text, up to what follows it. -/
theorem exists_tokensInside_append (hname : ∀ name ∈ element?, IsTagName name)
    (htext : Legible element? s closed) (hstop : Follows element? closed stop) :
    ∃ found, Textual found ∧ found.flatMap Token.chars = readText element? s ∧
      tokensInside element? (s ++ stop) = found ++ tokens stop := by
  have hhead := head?_of_follows hstop
  cases hbind : element?.bind contentModel? with
  | none =>
    obtain ⟨found, hfound, hchars, hread⟩ : ∃ found, Textual found ∧
        found.flatMap Token.chars = (decodeText s).flatMap withoutNull ∧
        tokens (s ++ stop) = found ++ tokens stop := by
      cases htext with
      | text hs => exact decodes_tokens.exists_append hs hhead
      | content hname hcontent _ _ => simp_all
    refine ⟨found, hfound, by simp only [readText, hbind, hchars], ?_⟩
    cases element? with
    | none => exact hread
    | some name =>
      have hmodel : contentModel? name = none := hbind
      simp only [tokensInside, hmodel, hread]
  | some model =>
    obtain ⟨name, helement, hmodel⟩ := Option.bind_eq_some_iff.1 hbind
    by_cases hescapable : model = .escapableText
    · subst hescapable
      have hs : '<' ∉ s := by
        cases htext with
        | text hs => exact hs
        | content hname hcontent hverbatim _ => simp_all
      obtain ⟨found, hfound, hchars, hread⟩ := (decodes_escapableText name).exists_append hs hhead
      refine ⟨found, hfound, ?_, tokensInside_of_readContent hstop helement hmodel hread⟩
      rw [hchars, readText, hbind, List.map_eq_flatMap]
    · have hencloses : Encloses model name s closed := by
        cases htext with
        | text hs => exact encloses_of_not_mem hs model name closed
        | content hother hcontent _ hencloses => simp_all
      have hafter : stop = [] ∨
          closed = true ∧ ∃ rest, stop = (Piece.endTag name).write ++ rest := by
        cases hstop with
        | nothing => exact .inl rfl
        | mark hmark hisMark hend rest =>
          obtain ⟨attributes, selfClosing, rfl⟩ := Token.exists_of_closes? (hend name helement)
          exact .inr ⟨rfl, rest, rfl⟩
      have hread := readContent_of_encloses hescapable hmodel (hname name helement) hencloses hafter
      refine ⟨_, textual_flatMap_contentTokens s, ?_,
        tokensInside_of_readContent hstop helement hmodel hread⟩
      rw [chars_flatMap_contentTokens]
      cases model with
      | script | rawText => rw [readText, hbind]
      | escapableText => contradiction

end

/-- Written spans that can be read back, given the element that begins before them and the text up to
    the first. -/
inductive Readable : Option Text → Text → List Span → Prop
  | nil {element? : Option Text} {s : Text} (htext : Legible element? s false) :
    Readable element? s []
  | cons {element? : Option Text} {s : Text} {span : Span} {spans : List Span}
    (htext : Legible element? s true) (hend : ∀ name ∈ element?, span.tag.closes? = some name)
    (hmark : span.tag.WellFormed) (hlater : Readable span.tag.opens? span.text spans) :
    Readable element? s (span :: spans)

/-- A written span as it is read. -/
def Span.read (span : Span) : Span := ⟨span.tag.bare, readText span.tag.opens? span.text⟩

/-- Written spans are read back one by one. -/
theorem spansAt_tokensInside {ends : Token → Bool}
    (hends : ∀ token, token.isTextual = true → ends token = false) {element? : Option Text} {s : Text}
    {spans : List Span} (hname : ∀ name ∈ element?, IsTagName name)
    (hmarks : ∀ span ∈ spans, span.tag.isMark = true ∧ ends span.tag.bare = true)
    (h : Readable element? s spans) :
    spansAt ends (tokensInside element? (s ++ spans.flatMap Span.write)) =
      (readText element? s, spans.map Span.read) := by
  induction h with
  | nil htext =>
    obtain ⟨found, hfound, hchars, htokens⟩ := exists_tokensInside_append hname htext .nothing
    have hkept := spansAt_append fun token htoken => hends token (hfound token htoken)
    rw [List.flatMap_nil, htokens, hkept, hchars, tokens_nil, spansAt, List.append_nil, List.map_nil]
  | @cons element? s span spans htext hend hmark hlater ih =>
    obtain ⟨⟨hisMark, hspan⟩, hmarks⟩ := List.forall_mem_cons.1 hmarks
    obtain ⟨found, hfound, hchars, htokens⟩ := exists_tokensInside_append hname htext
      (Follows.mark hmark hisMark hend (span.text ++ spans.flatMap Span.write))
    have hkept := spansAt_append fun token htoken => hends token (hfound token htoken)
    have hread := ih (fun name hopens => Token.isTagName_of_opens? hmark hopens) hmarks
    rw [List.flatMap_cons, Span.write, List.append_assoc, htokens, hkept, hchars,
      tokens_write hmark hisMark, spansAt_cons hspan, hread, List.append_nil]
    rfl

theorem readText_opens? (mark : Token) {s : Text} (hs : '\x00' ∉ s) :
    readText mark.opens? s = if mark.opensRawText then s else decodeText s := by
  have hverbatim : s.map visible = s := map_visible_of_not_mem hs
  have hdecoded : (decodeText s).map visible = decodeText s :=
    map_visible_of_not_mem (null_not_mem_decodeText hs)
  have hordinary : (decodeText s).flatMap withoutNull = decodeText s :=
    flatMap_shown (fun c hc => if_neg hc) (null_not_mem_decodeText hs)
  unfold Token.opensRawText readText
  cases hopens : mark.opens? with
  | none => simpa using hordinary
  | some name =>
    obtain ⟨attributes, -, hsome⟩ := Token.exists_of_opens? hopens
    obtain ⟨model, hmodel⟩ := Option.isSome_iff_exists.1 hsome
    cases model <;> simp [hmodel, hverbatim, hdecoded]

theorem Fits.opens? {element? : Option Text} {tag : Token} {later : List Token}
    (h : Fits element? (tag :: later)) :
    Fits tag.opens? later ∧ ∀ name ∈ element?, tag.closes? = some name := by
  cases element? with
  | none => exact ⟨h, by simp⟩
  | some name =>
    obtain ⟨hcloses, hlater⟩ := h
    obtain ⟨attributes, selfClosing, rfl⟩ := Token.exists_of_closes? hcloses
    exact ⟨hlater, by simpa using hcloses⟩

end PostMarkup.Html
