import PostMarkup.Html.RawText

namespace PostMarkup.Html

/-- The tokens of one construct, and the text after it. -/
structure Construct where
  tokens : List Token
  rest : Text

/-- The content of a comment, from after its `<!--`, and the text after the comment. A comment that
    the input cuts off loses the beginnings of its end mark. -/
def commentBody : Text → Text × Text
  | [] => ([], [])
  | '-' :: '-' :: '>' :: s => ([], s)
  | '-' :: '-' :: '!' :: '>' :: s => ([], s)
  | ['-', '-', '!'] => ([], [])
  | ['-', '-'] => ([], [])
  | ['-'] => ([], [])
  | c :: s =>
    let (body, rest) := commentBody s
    (visible c :: body, rest)

/-- A comment, from after its `<!--`. A `>` or `->` at once makes it an empty comment. -/
def readComment (s : Text) : Construct :=
  match s with
  | '>' :: rest => ⟨[.comment []], rest⟩
  | '-' :: '>' :: rest => ⟨[.comment []], rest⟩
  | _ =>
    let (body, rest) := commentBody s
    ⟨[.comment body], rest⟩

/-- The text after the next `>`. -/
def afterAngle (s : Text) : Text := (s.dropWhile (· ≠ '>')).tail

/-- Markup of no known kind is a comment up to the next `>`. -/
def bogusComment (s : Text) : Construct :=
  ⟨[.comment ((s.takeWhile (· ≠ '>')).map visible)], afterAngle s⟩

/-- Markup that begins with `<!`, from after these two characters. -/
def readDeclaration (s : Text) : Construct :=
  match Text.after? "--".toList s, Text.afterAnyCase? "doctype".toList s with
  | some body, _ => readComment body
  | none, some body => ⟨[.documentType], afterAngle body⟩
  | none, none => bogusComment s

/-- What a start tag and its content are read as. Only elements with a content model of their own
    have content here. -/
def readElement (tag : Tag) : Construct :=
  let start := Token.startTag tag.name (distinctKeys [] tag.attributes) tag.selfClosing
  match if tag.selfClosing then none else contentModel? tag.name with
  | none => ⟨[start], tag.rest⟩
  | some model =>
    let content := readContent model tag.name tag.rest
    match content.tail?.bind readTagEnd? with
    | some tagEnd =>
      let stop := Token.endTag tag.name (distinctKeys [] tagEnd.attributes) tagEnd.selfClosing
      ⟨start :: content.tokens ++ [stop], tagEnd.rest⟩
    | none => ⟨start :: content.tokens, []⟩

/-- An end tag, from after its `</`. -/
def readEndTag (s : Text) : Construct :=
  match s with
  | [] => ⟨[.parseError, .text "</".toList], []⟩
  | '>' :: rest => ⟨[.parseError], rest⟩
  | c :: _ =>
    if c.isAlpha then
      match readTag? s with
      | some tag =>
        ⟨[.endTag tag.name (distinctKeys [] tag.attributes) tag.selfClosing], tag.rest⟩
      | none => ⟨[], []⟩
    else bogusComment s

/-- Markup, from after its `<`. Anything else after that character makes it text. -/
def readMarkup (s : Text) : Construct :=
  match s with
  | '!' :: s => readDeclaration s
  | '/' :: s => readEndTag s
  | '?' :: _ => bogusComment s
  | c :: _ =>
    if c.isAlpha then
      match readTag? s with
      | some tag => readElement tag
      | none => ⟨[], []⟩
    else ⟨[.parseError, .text ['<']], s⟩
  | [] => ⟨[.parseError, .text ['<']], []⟩

theorem length_commentBody_le (s : Text) : (commentBody s).2.length ≤ s.length := by
  fun_induction commentBody s <;> grind

theorem length_afterAngle_le (s : Text) : (afterAngle s).length ≤ s.length := by
  have hdrop := Text.length_dropWhile_le (· ≠ '>') s
  simp only [afterAngle, List.length_tail]
  omega

theorem length_readComment_le (s : Text) : (readComment s).rest.length ≤ s.length := by
  unfold readComment
  split
  · simp
  · simp only [List.length_cons]
    omega
  · exact length_commentBody_le _

theorem length_readDeclaration_le (s : Text) : (readDeclaration s).rest.length ≤ s.length := by
  unfold readDeclaration
  split
  · next body hafter =>
    have hlength := congrArg List.length (Text.after?_eq_some_iff.1 hafter)
    have hle := length_readComment_le body
    simp only [List.length_append] at hlength
    omega
  · next body _ hafter =>
    exact Nat.le_trans (length_afterAngle_le body) (Text.length_le_of_afterAnyCase? hafter)
  · exact length_afterAngle_le s

theorem length_readElement_le (tag : Tag) : (readElement tag).rest.length ≤ tag.rest.length := by
  simp only [readElement]
  split
  · exact Nat.le_refl _
  · next model _ =>
    split
    · next tagEnd htail =>
      obtain ⟨tail, htail, hread⟩ := Option.bind_eq_some_iff.1 htail
      have hle := length_le_of_readContent htail
      have hlt := length_lt_of_readTagEnd? hread
      exact Nat.le_trans (Nat.le_of_lt hlt) hle
    · exact Nat.zero_le _

theorem length_readEndTag_le (s : Text) : (readEndTag s).rest.length ≤ s.length := by
  unfold readEndTag
  split
  · simp
  · simp
  · split
    · split
      · next hread => exact Nat.le_of_lt (length_lt_of_readTag? hread)
      · exact Nat.zero_le _
    · exact length_afterAngle_le _

/-- Markup gives nothing back beyond what followed its `<`. -/
theorem length_readMarkup_le (s : Text) : (readMarkup s).rest.length ≤ s.length := by
  unfold readMarkup
  split
  · exact Nat.le_succ_of_le (length_readDeclaration_le _)
  · exact Nat.le_succ_of_le (length_readEndTag_le _)
  · exact length_afterAngle_le _
  · split
    · split
      · next tag hread =>
        exact Nat.le_trans (length_readElement_le tag) (Nat.le_of_lt (length_lt_of_readTag? hread))
      · exact Nat.zero_le _
    · exact Nat.le_refl _
  · exact Nat.le_refl _

/-- The tokens of a text whose line ends are normalised. -/
def tokens (s : Text) : List Token :=
  match s with
  | [] => []
  | '<' :: s =>
    let construct := readMarkup s
    construct.tokens ++ tokens construct.rest
  | '&' :: s =>
    let found := Reference.read .runningText s
    referenceTokens found ++ tokens found.rest
  | c :: s => (if c = '\x00' then [.parseError, .null] else [.text [c]]) ++ tokens s
termination_by s.length
decreasing_by
  · have hle := length_readMarkup_le s
    exact Nat.lt_succ_of_le hle
  · have hle := Reference.length_read_le .runningText s
    exact Nat.lt_succ_of_le hle
  · simp

/-- The tokens of a document. A byte order mark at its head is dropped. -/
def tokenize (input : Text) : List Token := tokens (normaliseLineEnds input.dropByteOrderMark)

end PostMarkup.Html
