import PostMarkup.Dialect.DocumentType
import PostMarkup.Dialect.Event

namespace PostMarkup.Dialect

/-- The blanks that separate the parts of a tag. -/
def isSeparator (c : Char) : Bool := c = ' ' || c = '\t' || c = '\r' || c = '\n'

/-- The attributes of a start tag, from the end of its name on. A key that was seen before, a key
    without a value and a value without quotes are passed over; a value whose quote never closes
    ends the list. -/
def readAttributes (seen : List Text) (s : Text) : List Attribute :=
  match _hkey : s.dropWhile isSeparator with
  | [] => []
  | c :: s₁ =>
    let key := c :: s₁.takeWhile fun c => c ≠ '=' && !isSeparator c
    match _hequals : (s₁.dropWhile fun c => c ≠ '=' && !isSeparator c).dropWhile isSeparator with
    | [] => []
    | '=' :: s₂ =>
      if key ∈ seen then readAttributes seen (s₂.dropWhile fun c => !isSeparator c)
      else
        match _hvalue : s₂.dropWhile isSeparator with
        | [] => []
        | quote :: s₃ =>
          if DocumentType.isQuote quote then
            match _hquote : Text.upTo? [quote] s₃ with
            | some (value, rest) => ⟨key, value⟩ :: readAttributes (key :: seen) rest
            | none => []
          else readAttributes (key :: seen) ((quote :: s₃).dropWhile fun c => !isSeparator c)
    | s₂ => readAttributes seen s₂
termination_by s.length
decreasing_by
  all_goals
    have hle₁ := Text.length_dropWhile_le isSeparator s
    have hle₂ := Text.length_dropWhile_le (fun c => c ≠ '=' && !isSeparator c) s₁
    have hle₃ := Text.length_dropWhile_le isSeparator
      (s₁.dropWhile fun c => c ≠ '=' && !isSeparator c)
    rw [_hkey] at hle₁
    rw [_hequals] at hle₃
    simp only [List.length_cons] at hle₁ hle₃ ⊢
  · have hle₄ := Text.length_dropWhile_le (fun c => !isSeparator c) s₂
    omega
  · have hle₄ := Text.length_dropWhile_le isSeparator s₂
    have hlt := Text.length_lt_of_upTo? _hquote (by simp)
    rw [_hvalue] at hle₄
    simp only [List.length_cons] at hle₄
    omega
  · have hle₄ := Text.length_dropWhile_le isSeparator s₂
    have hle₅ := Text.length_dropWhile_le (fun c => !isSeparator c) (quote :: s₃)
    rw [_hvalue] at hle₄
    simp only [List.length_cons] at hle₄ hle₅
    omega
  · omega

/-- The inside of a tag, up to the first `>` that no quote hides, and the text after that `>`. -/
def tagInside : Option Char → Text → Except Construct (Text × Text)
  | none, [] => .error .tag
  | some quote, [] => .error (.quoted quote)
  | none, c :: s =>
    if c = '>' then .ok ([], s)
    else
      match tagInside (if DocumentType.isQuote c then some c else none) s with
      | .ok (inside, rest) => .ok (c :: inside, rest)
      | .error construct => .error construct
  | some quote, c :: s =>
    match tagInside (if c = quote then none else some quote) s with
    | .ok (inside, rest) => .ok (c :: inside, rest)
    | .error construct => .error construct

theorem length_lt_of_tagInside {quote : Option Char} {s inside rest : Text}
    (hinside : tagInside quote s = .ok (inside, rest)) : rest.length < s.length := by
  fun_induction tagInside quote s generalizing inside <;> grind

/-- The outcome of reading at one place. -/
inductive Step
  | finished
  /-- Reading stops; `remaining` begins at the place that the fault is reported for. -/
  | failed (fault : Fault) (remaining : Text)
  | event (event : Event) (rest : Text)

/-- The start tag with the given inside. It is its own end tag if a slash stands last. -/
def startTag (inside : Text) : Event :=
  let tag (body : Text) (make : Text → List Attribute → Event) : Event :=
    make (body.takeWhile fun c => !isSeparator c)
      (readAttributes [] (body.dropWhile fun c => !isSeparator c))
  match inside.getLast? with
  | some '/' => tag inside.dropLast .emptyTag
  | _ => tag inside .startTag

/-- The name in an end tag may have blanks after it. Blanks alone are a name as they stand. -/
def endTag (inside : Text) : Event :=
  match (inside.reverse.dropWhile isSeparator).reverse with
  | [] => .endTag inside
  | name => .endTag name

/-- An instruction, from after its `<?`. A declaration is an instruction named `xml`. -/
def readInstruction (s : Text) : Step :=
  let unclosed : Construct :=
    match s with
    | 'x' :: 'm' :: 'l' :: rest =>
      if rest.head?.all fun c => isSeparator c || c = '?' then .declaration else .instruction
    | _ => .instruction
  if s.head? = some '>' then .failed (.unclosed .instruction) ('<' :: '?' :: s)
  else
    match Text.upTo? "?>".toList s with
    | some (content, rest) => .event (.directive ("<?".toList ++ content ++ "?>".toList)) rest
    | none => .failed (.unclosed unclosed) ('<' :: '?' :: s)

/-- A document type declaration, from after its `<!DOCTYPE`; `whole` is the text from the `<`. -/
def readDocumentType (whole s : Text) : Step :=
  match DocumentType.closing? .outer s with
  | none => .failed (.unclosed .documentType) whole
  | some closing =>
    match (s.take (s.length - closing.length)).dropWhile isSeparator with
    | [] => .failed .namelessDocumentType closing
    | content => .event (.directive ("<!DOCTYPE ".toList ++ content ++ ['>'])) closing.tail

/-- Markup that begins with `<!`, from after these two characters. The next character alone decides
    which construct it is held to be. -/
def readDeclaration (s : Text) : Step :=
  let whole := '<' :: '!' :: s
  match s with
  | '-' :: _ =>
    match (Text.after? "--".toList s).bind (Text.upTo? "-->".toList) with
    | some (content, rest) =>
      .event (.directive ("<!--".toList ++ content ++ "-->".toList)) rest
    | none => .failed (.unclosed .comment) whole
  | '[' :: _ =>
    match (Text.after? "[CDATA[".toList s).bind (Text.upTo? "]]>".toList) with
    | some (content, rest) => .event (.literal content) rest
    | none => .failed (.unclosed .literal) whole
  | c :: _ =>
    if c = 'D' || c = 'd' then
      match Text.afterAnyCase? "doctype".toList s with
      | some rest => readDocumentType whole rest
      | none => .failed (.unclosed .documentType) whole
    else .failed .unknownMarkup whole
  | [] => .failed .unknownMarkup whole

/-- A tag, from after its `<` or `</`. -/
def readTag (whole s : Text) (tag : Text → Event) : Step :=
  match tagInside none s with
  | .ok (inside, rest) => .event (tag inside) rest
  | .error construct => .failed (.unclosed construct) whole

/-- A reference, from after its `&`. Anything may stand before the semicolon but the beginning of
    other markup. -/
def readReference (s : Text) : Step :=
  let isName := fun c => c ≠ ';' && c ≠ '&' && c ≠ '<'
  match s.dropWhile isName with
  | ';' :: rest => .event (.reference (s.takeWhile isName)) rest
  | _ => .failed .unclosedReference ('&' :: s)

/-- The event at the head of a text. -/
def nextEvent : Text → Step
  | [] => .finished
  | '&' :: s => readReference s
  | '<' :: '!' :: s => readDeclaration s
  | '<' :: '?' :: s => readInstruction s
  | '<' :: '/' :: s => readTag ('<' :: '/' :: s) s endTag
  | '<' :: s => readTag ('<' :: s) s startTag
  | c :: s => .event (.character c) s

theorem length_lt_of_readInstruction {s rest : Text} {event : Event}
    (hread : readInstruction s = .event event rest) : rest.length < s.length := by
  simp only [readInstruction] at hread
  split at hread
  · contradiction
  · split at hread
    · next hcut =>
      obtain ⟨-, rfl⟩ := Step.event.inj hread
      exact Text.length_lt_of_upTo? hcut (by simp)
    · contradiction

theorem length_le_of_readDocumentType {whole s rest : Text} {event : Event}
    (hread : readDocumentType whole s = .event event rest) : rest.length ≤ s.length := by
  simp only [readDocumentType] at hread
  split at hread
  · contradiction
  · next closing hclosing =>
    split at hread
    · contradiction
    · obtain ⟨-, rfl⟩ := Step.event.inj hread
      have hle := DocumentType.length_closing?_le hclosing
      simp only [List.length_tail]
      omega

theorem length_le_of_readDeclaration {s rest : Text} {event : Event}
    (hread : readDeclaration s = .event event rest) : rest.length ≤ s.length := by
  have hcut {lead mark body tail : Text} (hmark : mark ≠ [])
      (hbind : (Text.after? lead s).bind (Text.upTo? mark) = some (body, tail)) :
      tail.length ≤ s.length := by
    obtain ⟨middle, hafter, hupTo⟩ := Option.bind_eq_some_iff.1 hbind
    have hlt := Text.length_lt_of_upTo? hupTo hmark
    have hlength := congrArg List.length (Text.after?_eq_some_iff.1 hafter)
    simp only [List.length_append] at hlength
    omega
  simp only [readDeclaration] at hread
  split at hread
  · split at hread
    · next hbind =>
      obtain ⟨-, rfl⟩ := Step.event.inj hread
      exact hcut (by simp) hbind
    · contradiction
  · split at hread
    · next hbind =>
      obtain ⟨-, rfl⟩ := Step.event.inj hread
      exact hcut (by simp) hbind
    · contradiction
  · split at hread
    · split at hread
      · next hafter =>
        have hle := length_le_of_readDocumentType hread
        have hafter := Text.length_le_of_afterAnyCase? hafter
        omega
      · contradiction
    · contradiction
  · contradiction

theorem length_lt_of_readTag {whole s rest : Text} {tag : Text → Event} {event : Event}
    (hread : readTag whole s tag = .event event rest) : rest.length < s.length := by
  simp only [readTag] at hread
  split at hread
  · next hinside =>
    obtain ⟨-, rfl⟩ := Step.event.inj hread
    exact length_lt_of_tagInside hinside
  · contradiction

theorem length_le_of_readReference {s rest : Text} {event : Event}
    (hread : readReference s = .event event rest) : rest.length ≤ s.length := by
  simp only [readReference] at hread
  split at hread
  · next hsemicolon =>
    obtain ⟨-, rfl⟩ := Step.event.inj hread
    have hle := Text.length_dropWhile_le (fun c => c ≠ ';' && c ≠ '&' && c ≠ '<') s
    rw [hsemicolon] at hle
    exact Nat.le_of_succ_le hle
  · contradiction

/-- Every event takes at least one character. -/
theorem length_lt_of_nextEvent {s rest : Text} {event : Event}
    (hnext : nextEvent s = .event event rest) : rest.length < s.length := by
  unfold nextEvent at hnext
  split at hnext
  · contradiction
  · have := length_le_of_readReference hnext
    grind
  · have := length_le_of_readDeclaration hnext
    grind
  · have := length_lt_of_readInstruction hnext
    grind
  · have := length_lt_of_readTag hnext
    grind
  · have := length_lt_of_readTag hnext
    grind
  · obtain ⟨-, rfl⟩ := Step.event.inj hnext
    simp

end PostMarkup.Dialect
