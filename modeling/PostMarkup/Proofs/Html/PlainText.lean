import PostMarkup.Html.PlainText
import PostMarkup.Proofs.Html.Spans
import PostMarkup.Proofs.Reference.Extent

namespace PostMarkup.Html

open Reference (InOrder)

theorem inOrder_escapeText {s : Text} (hs : '\x00' ∉ s ∧ '\r' ∉ s) : InOrder (escapeText s) := by
  induction s with
  | nil => exact .nil
  | cons c s ih =>
    have hrest := ih ⟨fun hmem => hs.1 (by simp [hmem]), fun hmem => hs.2 (by simp [hmem])⟩
    obtain ⟨name, hescape, heq⟩ | ⟨hangle, hampersand, heq⟩ := escapeText_cons c s
    · obtain ⟨hname, hnamed⟩ := Reference.named?_of_mem_escapes hescape
      rw [heq]
      exact .reference hname hnamed hrest
    · have hnull : c ≠ '\x00' := fun hc => hs.1 (by simp [hc])
      have hreturn : c ≠ '\r' := fun hc => hs.2 (by simp [hc])
      rw [heq]
      exact .character (by simp [hangle, hampersand, hnull, hreturn]) hrest

/-- Text in order is decoded by itself. -/
theorem decodeText_append {s : Text} (hs : InOrder s) (t : Text) :
    decodeText (s ++ t) = decodeText s ++ decodeText t := by
  induction hs with
  | nil => rw [decodeText_nil, List.nil_append, List.nil_append]
  | @character c s hc _ ih =>
    have hampersand : c ≠ '&' := fun heq => hc (by simp [heq])
    rw [List.cons_append, decodeText_cons hampersand, decodeText_cons hampersand, ih,
      List.cons_append]
  | @reference name text s hname hnamed _ ih =>
    rw [List.cons_append, List.append_assoc, List.cons_append, decodeText_ampersand,
      decodeText_ampersand, Reference.read_of_named? hname hnamed,
      Reference.read_of_named? hname hnamed, ih, List.append_assoc]

/-- Text in order goes into the chunk that is open, as far as it is shown. -/
theorem splitChunks_tokens_append {s : Text} (hs : InOrder s) (depth : Depth) (t : Text) :
    splitChunks depth (tokens (s ++ t)) =
      ((if depth.shows then decodeText s else []) ++ (splitChunks depth (tokens t)).1,
        (splitChunks depth (tokens t)).2) := by
  induction hs with
  | nil => simp [decodeText_nil]
  | @character c s hc _ ih =>
    simp only [String.reduceToList, List.mem_cons, List.not_mem_nil, or_false, not_or] at hc
    obtain ⟨hangle, hampersand, hnull, -⟩ := hc
    have hread : tokens (c :: (s ++ t)) = .text [c] :: tokens (s ++ t) := by
      rw [tokens, if_neg hnull, List.singleton_append]
      · exact hangle
      · exact hampersand
    rw [List.cons_append, hread, splitChunks, ih, decodeText_cons hampersand]
    cases depth.shows <;> rfl
  | @reference name text s hname hnamed _ ih =>
    have hread : tokens ('&' :: (name ++ ';' :: (s ++ t))) = .text text :: tokens (s ++ t) := by
      rw [tokens, Reference.read_of_named? hname hnamed]
      rfl
    rw [List.cons_append, List.append_assoc, List.cons_append, hread, splitChunks, ih,
      decodeText_ampersand, Reference.read_of_named? hname hnamed]
    cases depth.shows <;> simp

/-- Every token but text ends a chunk. -/
theorem splitChunks_of_ne_text {token : Token} (htoken : ∀ s, token ≠ .text s) (depth : Depth)
    (tokens : List Token) :
    splitChunks depth (token :: tokens) =
      ([], trimmedChunk (splitChunks (depth.after token) tokens).1 ++
        (splitChunks (depth.after token) tokens).2) := by
  cases token <;> first | rfl | exact absurd rfl (htoken _)

/-- A start tag with unescaped values. -/
def tagSource (name : Text) (attributes : List Attribute) (selfClosing : Bool) : Text :=
  '<' :: name ++ attributes.flatMap Attribute.write ++ tagClose selfClosing

section

variable {name : Text} {attributes : List Attribute} (hname : IsTagName name)
  (hattributes : ∀ entry ∈ attributes, Quotable entry) (selfClosing : Bool) (s : Text)

include hname hattributes

/-- A tag is read whatever its values are. -/
theorem exists_tokens_tagSource :
    ∃ entries, tokens (tagSource name attributes selfClosing ++ s) =
      .startTag name entries selfClosing ::
        tokensInside (if selfClosing then none else some name) s := by
  have hread := readTag?_write hname hattributes selfClosing s
  have hletter : (name ++ attributes.flatMap Attribute.write ++ tagClose selfClosing ++ s).head?.any
      Char.isAlpha := by
    rw [List.append_assoc, List.append_assoc]
    exact head?_append_of_isTagName hname _
  refine ⟨distinctKeys [] (attributes.map decodeAttribute), ?_⟩
  rw [tagSource, List.cons_append, List.cons_append, List.cons_append, tokens_angle,
    readMarkup_of_readTag? hletter hread]
  simp only [readElement]
  cases selfClosing with
  | true => rfl
  | false =>
    cases hmodel : contentModel? name with
    | none => simp [hmodel, tokensInside]
    | some model =>
      simp only [hmodel, tokensInside, Bool.false_eq_true, if_false]
      cases (readContent model name s).tail?.bind readTagEnd? with
      | none => simp [tokens_nil]
      | some tagEnd => simp

/-- Normalising line ends changes nothing in a tag but its values. -/
theorem exists_tokens_normalise_tagSource :
    ∃ entries, tokens (normaliseLineEnds (tagSource name attributes selfClosing ++ s)) =
      .startTag name entries selfClosing ::
        tokensInside (if selfClosing then none else some name) (normaliseLineEnds s) := by
  have hstart : '\r' ∉ '<' :: name := by
    simpa using fun hmem => (hname.plain _ hmem).2 rfl
  have hclose : '\r' ∉ tagClose selfClosing := by
    cases selfClosing <;> simp [tagClose]
  have hkeys : ∀ entry ∈ attributes, '\r' ∉ entry.key :=
    fun entry hentry hmem => ((hattributes entry hentry).key.plain _ hmem).2 rfl
  have hnormal : ∀ entry ∈ attributes.map normaliseAttribute, Quotable entry := by
    intro normal hmem
    obtain ⟨entry, hentry, rfl⟩ := List.mem_map.1 hmem
    have hquotable := hattributes entry hentry
    exact ⟨hquotable.key, fun hquote =>
      hquotable.value (mem_of_mem_normaliseLineEnds (by decide) hquote)⟩
  obtain ⟨entries, hread⟩ := exists_tokens_tagSource hname hnormal selfClosing (normaliseLineEnds s)
  refine ⟨entries, ?_⟩
  rw [tagSource, List.append_assoc, List.append_assoc, normaliseLineEnds_append_of_not_mem hstart,
    normaliseLineEnds_flatMap_write hkeys, normaliseLineEnds_append_of_not_mem hclose, ← hread]
  simp [tagSource]

end

/-- A byte order mark stands outside every element, so it makes no difference that it is dropped. -/
theorem chunks_tokenize (input : Text) :
    chunks (tokenize input) = chunks (tokens (normaliseLineEnds input)) := by
  unfold tokenize
  cases input with
  | nil => rfl
  | cons c s =>
    by_cases hc : c = '\ufeff'
    · subst hc
      have hread : tokens ('\ufeff' :: normaliseLineEnds s) =
          .text ['\ufeff'] :: tokens (normaliseLineEnds s) := by
        rw [tokens]
        · rfl
        all_goals decide
      rw [normaliseLineEnds_cons (by decide), hread, Text.dropByteOrderMark, if_pos rfl]
      simp [chunks, splitChunks, Depth.shows]
    · rw [Text.dropByteOrderMark, if_neg hc]

theorem length_intercalate_space {chunks : List Text} (hchunks : chunks ≠ []) :
    ([' '].intercalate chunks).length + 1 = (chunks.map fun chunk => chunk.length + 1).sum := by
  induction chunks with
  | nil => contradiction
  | cons chunk chunks ih =>
    cases chunks with
    | nil => simp
    | cons next chunks =>
      have hrest := ih (by simp)
      rw [List.intercalate_cons_cons, List.map_cons, List.sum_cons, ← hrest]
      simp only [List.length_append, List.length_singleton]
      omega

theorem eq_of_sublist_of_sum_eq {kept chunks : List Text} (h : kept.Sublist chunks)
    (hsum : (kept.map fun chunk => chunk.length + 1).sum =
      (chunks.map fun chunk => chunk.length + 1).sum) : kept = chunks := by
  induction h with
  | slnil => rfl
  | @cons kept chunks chunk h _ =>
    have hle := (h.map fun chunk => chunk.length + 1).sum_le_sum (by simp)
    rw [List.map_cons, List.sum_cons] at hsum
    omega
  | @cons_cons kept chunks chunk h ih =>
    rw [List.map_cons, List.map_cons, List.sum_cons, List.sum_cons] at hsum
    rw [ih (by omega)]

/-- The joined text tells whether chunks are missing. -/
theorem eq_of_intercalate_space_eq {kept chunks : List Text} (h : kept.Sublist chunks)
    (hchunks : [] ∉ chunks) (heq : [' '].intercalate kept = [' '].intercalate chunks) :
    kept = chunks := by
  by_cases hkept : kept = []
  · subst hkept
    cases chunks with
    | nil => rfl
    | cons chunk chunks =>
      have hlength := length_intercalate_space (List.cons_ne_nil chunk chunks)
      have hpositive : 0 < chunk.length :=
        List.length_pos_iff.2 fun hnil => hchunks (by simp [hnil])
      rw [← heq, List.map_cons, List.sum_cons] at hlength
      simp only [List.intercalate_nil, List.length_nil] at hlength
      omega
  · have hall : chunks ≠ [] := by
      rintro rfl
      exact hkept (List.sublist_nil.1 h)
    refine eq_of_sublist_of_sum_eq h ?_
    rw [← length_intercalate_space hkept, ← length_intercalate_space hall, heq]

end PostMarkup.Html
