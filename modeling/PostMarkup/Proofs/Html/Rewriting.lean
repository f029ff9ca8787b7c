import PostMarkup.Proofs.Html.Spans

namespace PostMarkup.Html

/-- A mark, and the text nodes from there to the next mark. -/
structure Stretch where
  mark : Token
  nodes : List Text
deriving DecidableEq

/-- Some text before the first of a list of nodes. -/
def lengthen (s : Text) : List Text → List Text
  | [] => [s]
  | node :: nodes => (s ++ node) :: nodes

/-- The text nodes before the first mark, and the stretches from that mark on, as tokens of some kind
    are marks. Other markup ends a node. -/
def stretches (ends : Token → Bool) : List Token → List Text × List Stretch
  | [] => ([], [])
  | token :: tokens =>
    let later := stretches ends tokens
    if ends token then ([], ⟨token, later.1⟩ :: later.2)
    else if token.isTextual then (lengthen token.chars later.1, later.2)
    else ([] :: later.1, later.2)

theorem flatten_lengthen (s : Text) (nodes : List Text) :
    (lengthen s nodes).flatten = s ++ nodes.flatten := by
  cases nodes <;> simp [lengthen]

theorem chars_of_not_isTextual {token : Token} (htoken : token.isTextual = false) :
    token.chars = [] := by
  cases token <;> first | rfl | contradiction

/-- The nodes of a stretch together are its text. -/
theorem spansAt_eq_stretches (ends : Token → Bool) (tokens : List Token) :
    spansAt ends tokens = ((stretches ends tokens).1.flatten,
      (stretches ends tokens).2.map fun stretch => ⟨stretch.mark, stretch.nodes.flatten⟩) := by
  induction tokens with
  | nil => rfl
  | cons token tokens ih =>
    unfold spansAt stretches
    rw [ih]
    split
    · simp
    · split
      · simp [flatten_lengthen]
      · next htextual => simp [chars_of_not_isTextual (by simpa using htextual)]

/-- Stretches hold only characters of the tokens. -/
theorem not_mem_stretches (ends : Token → Bool) {c : Char} {tokens : List Token}
    (htokens : ∀ token ∈ tokens, c ∉ token.chars) :
    c ∉ (stretches ends tokens).1.flatten ∧
      ∀ stretch ∈ (stretches ends tokens).2, c ∉ stretch.nodes.flatten := by
  have hspans := not_mem_spansAt ends htokens
  rwa [spansAt_eq_stretches, List.forall_mem_map] at hspans

theorem map_mark_stretches (ends : Token → Bool) (tokens : List Token) :
    (stretches ends tokens).2.map Stretch.mark = tokens.filter ends := by
  rw [← map_tag_spansAt, spansAt_eq_stretches, List.map_map]
  rfl

section

variable {ends : Token → Bool} (hends : ∀ token, token.isTextual = true → ends token = false)

include hends

/-- Text leaves the stretches after it as they are. -/
theorem stretches_append {held : List Token} (hheld : Textual held) (tokens : List Token) :
    (stretches ends (held ++ tokens)).2 = (stretches ends tokens).2 ∧
      (stretches ends (held ++ tokens)).1.flatten =
        held.flatMap Token.chars ++ (stretches ends tokens).1.flatten := by
  induction held with
  | nil => exact ⟨rfl, rfl⟩
  | cons token held ih =>
    obtain ⟨htoken, hheld⟩ := List.forall_mem_cons.1 hheld
    obtain ⟨hspans, hnodes⟩ := ih hheld
    have hend := hends token htoken
    simp only [List.cons_append, stretches, hend, htoken, Bool.false_eq_true, if_false, if_true]
    refine ⟨hspans, ?_⟩
    rw [flatten_lengthen, hnodes, List.flatMap_cons, List.append_assoc]

end

namespace Style

variable {σ : Type} (style : Style σ)

/-- The tokens that the style writes as they come. -/
def keeps (token : Token) : Bool := if style.keepComments then token.isMark else token.isTag

theorem keeps_of_isTextual {token : Token} (htoken : token.isTextual = true) :
    style.keeps token = false := by
  unfold keeps
  rw [Token.isMark_of_isTextual htoken, Token.isTag_of_isTextual htoken, ite_self]

theorem isMark_of_keeps {token : Token} (htoken : style.keeps token = true) :
    token.isMark = true := by
  unfold keeps at htoken
  split at htoken
  · exact htoken
  · exact Token.isMark_of_isTag htoken

/-- The place after a mark. -/
def after (place : Place σ) : Token → Place σ
  | .startTag name _ selfClosing => style.afterStart place name selfClosing
  | .endTag name _ _ => style.afterEnd place name
  | _ => place

/-- A mark as it is to be written. End tags are written by their names only. -/
def adjusted : Token → Token
  | .startTag name attributes selfClosing =>
    .startTag name (style.adjust name attributes) selfClosing
  | token => token.bare

/-- Each stretch with the place that its text stands in. -/
def placed (place : Place σ) : List Stretch → List (Place σ × Stretch)
  | [] => []
  | stretch :: stretches =>
    let next := style.after place stretch.mark
    (next, stretch) :: placed next stretches

/-- Text nodes in their final form. -/
def writeNodes (place : Place σ) (nodes : List Text) : Text := nodes.flatMap (style.writeText place)

/-- A stretch as it is written. -/
def span (entry : Place σ × Stretch) : Span :=
  ⟨style.adjusted entry.2.mark, style.writeNodes entry.1 entry.2.nodes⟩

theorem map_snd_placed (place : Place σ) (stretches : List Stretch) :
    (style.placed place stretches).map Prod.snd = stretches := by
  induction stretches generalizing place with
  | nil => rfl
  | cons stretch stretches ih => simp [placed, ih]

/-- The place of a stretch follows from the marks up to its own. -/
theorem getElem?_placed (place : Place σ) (stretches : List Stretch)
    (i : Nat) :
    (style.placed place stretches)[i]? = stretches[i]?.map fun stretch =>
      (((stretches.map Stretch.mark).take (i + 1)).foldl style.after place, stretch) := by
  induction stretches generalizing place i with
  | nil => simp [placed]
  | cons stretch stretches ih =>
    cases i with
    | zero => simp [placed]
    | succ i => simpa [placed] using ih _ i

/-- From a place on, the style writes the text nodes and then the stretches. -/
structure WritesStretches (place : Place σ) (tokens : List Token) : Prop where
  node : (style.split place tokens).1 = (stretches style.keeps tokens).1.headD []
  pieces : (style.split place tokens).2.flatMap Piece.write =
    style.writeNodes place (stretches style.keeps tokens).1.tail ++
      ((style.placed place (stretches style.keeps tokens).2).map style.span).flatMap Span.write

theorem WritesStretches.textual {style : Style σ} {place : Place σ} {token : Token} {tokens : List Token}
    (h : style.WritesStretches place tokens) (htoken : token.isTextual = true)
    (hsplit : style.split place (token :: tokens) =
      (token.chars ++ (style.split place tokens).1, (style.split place tokens).2)) :
    style.WritesStretches place (token :: tokens) := by
  have hstretches : stretches style.keeps (token :: tokens) =
      (lengthen token.chars (stretches style.keeps tokens).1, (stretches style.keeps tokens).2) := by
    simp only [stretches, style.keeps_of_isTextual htoken, htoken, Bool.false_eq_true, if_false,
      if_true]
  have hhead (nodes : List Text) : (lengthen token.chars nodes).headD [] =
      token.chars ++ nodes.headD [] ∧ (lengthen token.chars nodes).tail = nodes.tail := by
    cases nodes <;> simp [lengthen]
  constructor
  · rw [hsplit, hstretches, (hhead _).1, h.node]
  · rw [hsplit, hstretches, (hhead _).2, h.pieces]

section

variable {style} (hescape : style.escape [] = [])

include hescape

theorem writeText_nil (place : Place σ) : style.writeText place [] = [] := by
  have hescapeText : escapeText [] = [] := rfl
  unfold writeText
  rw [hescape, Typography.RuleSet.apply_nil, hescapeText, ite_self, ite_self]

theorem flatMap_write_textPieces (place : Place σ) (s : Text) :
    (style.textPieces place s).flatMap Piece.write = style.writeText place s := by
  cases s with
  | nil => simp [textPieces, writeText_nil hescape]
  | cons c s => simp [textPieces, Piece.write]

theorem writeNodes_eq (place : Place σ) (nodes : List Text) :
    style.writeNodes place nodes =
      style.writeText place (nodes.headD []) ++ style.writeNodes place nodes.tail := by
  cases nodes with
  | nil => simp [writeNodes, writeText_nil hescape]
  | cons node nodes => simp [writeNodes]

/-- A mark ends the node before it, and its own text begins at the place after it. -/
theorem WritesStretches.mark {place : Place σ} {token : Token} {tokens : List Token} {piece : Piece}
    (h : style.WritesStretches (style.after place token) tokens) (hkept : style.keeps token = true)
    (hpiece : piece.write = (style.adjusted token).write)
    (hsplit : style.split place (token :: tokens) = ([], piece ::
      (style.textPieces (style.after place token)
        (style.split (style.after place token) tokens).1 ++
          (style.split (style.after place token) tokens).2))) :
    style.WritesStretches place (token :: tokens) := by
  have hstretches : stretches style.keeps (token :: tokens) =
      ([], ⟨token, (stretches style.keeps tokens).1⟩ :: (stretches style.keeps tokens).2) := by
    simp only [stretches, hkept, if_true]
  constructor
  · rw [hsplit, hstretches]
    rfl
  · have hwritten := writeNodes_eq hescape (style.after place token) (stretches style.keeps tokens).1
    rw [hsplit, hstretches]
    simp only [List.flatMap_cons, List.flatMap_append, flatMap_write_textPieces hescape, h.node,
      h.pieces, placed, List.map_cons, span, Span.write, hpiece, hwritten, List.append_assoc]
    rfl

/-- Markup that is not kept ends the node before it, and another begins in its place. -/
theorem WritesStretches.dropped {place : Place σ} {token : Token} {tokens : List Token}
    (h : style.WritesStretches place tokens) (hkept : style.keeps token = false)
    (htoken : token.isTextual = false)
    (hsplit : style.split place (token :: tokens) = ([],
      style.textPieces place (style.split place tokens).1 ++ (style.split place tokens).2)) :
    style.WritesStretches place (token :: tokens) := by
  have hstretches : stretches style.keeps (token :: tokens) =
      ([] :: (stretches style.keeps tokens).1, (stretches style.keeps tokens).2) := by
    simp only [stretches, hkept, htoken, Bool.false_eq_true, if_false]
  constructor
  · rw [hsplit, hstretches]
    rfl
  · rw [hsplit, hstretches, List.flatMap_append, flatMap_write_textPieces hescape, h.node, h.pieces,
      List.tail_cons, writeNodes_eq hescape place (stretches style.keeps tokens).1, List.append_assoc]

theorem writesStretches (place : Place σ) (tokens : List Token) :
    style.WritesStretches place tokens := by
  induction tokens generalizing place with
  | nil => exact ⟨rfl, rfl⟩
  | cons token tokens ih =>
    cases token with
    | text | null | parseError => exact (ih place).textual rfl rfl
    | startTag name attributes selfClosing =>
      refine .mark hescape (ih _) ?_ rfl rfl
      simp [keeps, Token.isMark, Token.isTag]
    | endTag name attributes selfClosing =>
      refine .mark hescape (ih _) ?_ rfl rfl
      simp [keeps, Token.isMark, Token.isTag]
    | comment content =>
      cases hcomments : style.keepComments with
      | true =>
        have hpiece : (Piece.comment content).write = (style.adjusted (.comment content)).write := rfl
        refine .mark hescape (ih place) ?_ hpiece ?_
        · simp [keeps, hcomments, Token.isMark]
        · simp [split, hcomments, after]
      | false =>
        refine .dropped hescape (ih place) ?_ rfl ?_
        · simp [keeps, hcomments, Token.isTag]
        · simp [split, hcomments]
    | documentType =>
      refine .dropped hescape (ih place) ?_ rfl rfl
      simp [keeps, Token.isMark, Token.isTag]

/-- What a style writes, stretch by stretch. -/
theorem write_eq (tokens : List Token) :
    style.write tokens = style.writeNodes style.start (stretches style.keeps tokens).1 ++
      ((style.placed style.start (stretches style.keeps tokens).2).map style.span).flatMap
        Span.write := by
  obtain ⟨hnode, hpieces⟩ := writesStretches hescape style.start tokens
  simp only [write, pieces, List.flatMap_append, flatMap_write_textPieces hescape, hnode, hpieces,
    writeNodes_eq hescape _ (stretches style.keeps tokens).1, List.append_assoc]

end

end Style

end PostMarkup.Html
