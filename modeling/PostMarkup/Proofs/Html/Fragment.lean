import PostMarkup.Proofs.Html.JoinedText
import PostMarkup.Proofs.Html.PlainText

namespace PostMarkup.Html

-- The characters are tested along the name, not over all characters.
instance : DecidablePred IsTagName := fun name =>
  decidable_of_iff (name.head?.any Char.isAlpha = true ∧
      (name.all fun c => !endsName c && c ≠ '\r') = true ∧ foldName name = name)
    ⟨fun ⟨hletter, hplain, hfolded⟩ => ⟨hletter, by simpa using hplain, hfolded⟩,
      fun ⟨hletter, hplain, hfolded⟩ => ⟨hletter, by simpa using hplain, hfolded⟩⟩

instance : DecidablePred IsKey := fun key =>
  decidable_of_iff (key ≠ [] ∧ (key.all fun c => !endsName c && c ≠ '\r') = true ∧
      '=' ∉ key.tail ∧ foldName key = key)
    ⟨fun ⟨hnonempty, hplain, hequals, hfolded⟩ =>
        ⟨hnonempty, by simpa using hplain, hequals, hfolded⟩,
      fun ⟨hnonempty, hplain, hequals, hfolded⟩ =>
        ⟨hnonempty, by simpa using hplain, hequals, hfolded⟩⟩

instance : DecidablePred Quotable := fun entry =>
  decidable_of_iff (IsKey entry.key ∧ '"' ∉ entry.value)
    ⟨fun ⟨hkey, hvalue⟩ => ⟨hkey, hvalue⟩, fun ⟨hkey, hvalue⟩ => ⟨hkey, hvalue⟩⟩

/-- The content of a fragment or of an element, first part first. -/
inductive Fragment
  | nothing
  | text (s : Text) (rest : Fragment)
  | comment (content : Text) (rest : Fragment)
  /-- An element that is written as one tag: it is void, or it has no children and closes itself. -/
  | single (name : Text) (attributes : List Attribute) (selfClosing : Bool) (rest : Fragment)
  | element (name : Text) (attributes : List Attribute) (inside rest : Fragment)
  /-- A script or a style. Its body is written as it is. -/
  | hidden (name : Text) (attributes : List Attribute) (body : Text) (rest : Fragment)
deriving DecidableEq

/-- A text between two marks, and the elements that it lies in, innermost first. -/
structure TreeText where
  ancestors : List Text
  text : Text
deriving DecidableEq

/-- The elements whose text is not visible. -/
def hiddenNames : List Text := ["script", "style"].map String.toList

/-- A text in an element, but in no script or style. -/
def TreeText.isVisible (node : TreeText) : Bool :=
  node.ancestors ≠ [] && node.ancestors.all fun name => name ∉ hiddenNames

namespace Fragment

def source : Fragment → Text
  | nothing => []
  | text s rest => escapeText s ++ rest.source
  | comment content rest => (Piece.comment content).write ++ rest.source
  | single name attributes selfClosing rest =>
    tagSource name attributes selfClosing ++ rest.source
  | element name attributes inside rest =>
    tagSource name attributes false ++ (inside.source ++ ((Piece.endTag name).write ++ rest.source))
  | hidden name attributes body rest =>
    tagSource name attributes false ++ (body ++ ((Piece.endTag name).write ++ rest.source))

/-- The parts can be told from each other in the source. Text has no U+0000 and no carriage return,
    which are not read as themselves. -/
def WellFormed : Fragment → Prop
  | nothing => True
  | text s rest => ('\x00' ∉ s ∧ '\r' ∉ s) ∧ rest.WellFormed
  | comment content rest =>
    (¬ ['>'] <+: content ∧ ¬ "->".toList <+: content) ∧
      (¬ "-->".toList <:+: content ∧ ¬ "--!>".toList <:+: content) ∧ rest.WellFormed
  | single name attributes selfClosing rest =>
    IsTagName name ∧ (∀ entry ∈ attributes, Quotable entry) ∧
      (selfClosing = true ∨ name ∈ voidElements) ∧ rest.WellFormed
  | element name attributes inside rest =>
    IsTagName name ∧ (∀ entry ∈ attributes, Quotable entry) ∧
      (name ∉ voidElements ∧ contentModel? name = none) ∧ inside.WellFormed ∧ rest.WellFormed
  | hidden name attributes body rest =>
    name ∈ hiddenNames ∧ (∀ entry ∈ attributes, Quotable entry) ∧ '<' ∉ body ∧ rest.WellFormed

instance decidableWellFormed : DecidablePred WellFormed
  | nothing => isTrue trivial
  | text s rest =>
    have := decidableWellFormed rest
    inferInstanceAs (Decidable (('\x00' ∉ s ∧ '\r' ∉ s) ∧ rest.WellFormed))
  | comment content rest =>
    have := decidableWellFormed rest
    inferInstanceAs (Decidable ((¬ ['>'] <+: content ∧ ¬ "->".toList <+: content) ∧
      (¬ "-->".toList <:+: content ∧ ¬ "--!>".toList <:+: content) ∧ rest.WellFormed))
  | single name attributes selfClosing rest =>
    have := decidableWellFormed rest
    inferInstanceAs (Decidable (IsTagName name ∧ (∀ entry ∈ attributes, Quotable entry) ∧
      (selfClosing = true ∨ name ∈ voidElements) ∧ rest.WellFormed))
  | element name attributes inside rest =>
    have := decidableWellFormed inside
    have := decidableWellFormed rest
    inferInstanceAs (Decidable (IsTagName name ∧ (∀ entry ∈ attributes, Quotable entry) ∧
      (name ∉ voidElements ∧ contentModel? name = none) ∧ inside.WellFormed ∧ rest.WellFormed))
  | hidden name attributes body rest =>
    have := decidableWellFormed rest
    inferInstanceAs (Decidable (name ∈ hiddenNames ∧ (∀ entry ∈ attributes, Quotable entry) ∧
      '<' ∉ body ∧ rest.WellFormed))

/-- The text before the first mark, and those after it. Every tag and every comment is a mark. -/
def textsFrom (ancestors : List Text) : Fragment → Text × List TreeText
  | nothing => ([], [])
  | text s rest =>
    let later := rest.textsFrom ancestors
    (s ++ later.1, later.2)
  | comment _ rest | single _ _ _ rest =>
    let later := rest.textsFrom ancestors
    ([], ⟨ancestors, later.1⟩ :: later.2)
  | element name _ inside rest =>
    let within := inside.textsFrom (name :: ancestors)
    let later := rest.textsFrom ancestors
    ([], ⟨name :: ancestors, within.1⟩ :: within.2 ++ ⟨ancestors, later.1⟩ :: later.2)
  | hidden name _ body rest =>
    let later := rest.textsFrom ancestors
    ([], ⟨name :: ancestors, body⟩ :: ⟨ancestors, later.1⟩ :: later.2)

/-- The texts of a fragment in document order, as tags and comments cut them. -/
def texts (fragment : Fragment) : List TreeText :=
  let later := fragment.textsFrom []
  ⟨[], later.1⟩ :: later.2

end Fragment

theorem tokens_normalise_endTag {name : Text} (hname : IsTagName name) (s : Text) :
    tokens (normaliseLineEnds ((Piece.endTag name).write ++ s)) =
      .endTag name [] false :: tokens (normaliseLineEnds s) := by
  have hwritten : '\r' ∉ (Piece.endTag name).write := by
    simpa [Piece.write] using fun hmem => (hname.plain _ hmem).2 rfl
  rw [normaliseLineEnds_append_of_not_mem hwritten]
  exact tokens_endTag hname _

/-- A comment is read up to its end mark. Its line ends make no mark that it did not have. -/
theorem exists_tokens_normalise_comment {content : Text}
    (hstart : ¬ ['>'] <+: content ∧ ¬ "->".toList <+: content)
    (hmark : ¬ "-->".toList <:+: content ∧ ¬ "--!>".toList <:+: content) (s : Text) :
    ∃ read, tokens (normaliseLineEnds ((Piece.comment content).write ++ s)) =
      .comment read :: tokens (normaliseLineEnds s) := by
  have hwritten : normaliseLineEnds ((Piece.comment content).write ++ s) =
      '<' :: '!' :: ("--".toList ++
        (normaliseLineEnds content ++ '-' :: '-' :: '>' :: normaliseLineEnds s)) := by
    have hopen : '\r' ∉ "<!--".toList := by decide
    have hclose : '\r' ∉ "-->".toList := by decide
    rw [Piece.write, List.append_assoc, List.append_assoc,
      normaliseLineEnds_append_of_not_mem hopen, normaliseLineEnds_append (by simp),
      normaliseLineEnds_append_of_not_mem hclose]
    rfl
  have hstart' : ¬ ['>'] <+: normaliseLineEnds content ∧ ¬ "->".toList <+: normaliseLineEnds content :=
    ⟨fun h => hstart.1 (prefix_of_prefix_normaliseLineEnds (by decide) h),
      fun h => hstart.2 (prefix_of_prefix_normaliseLineEnds (by decide) h)⟩
  have hmark' : ¬ "-->".toList <:+: normaliseLineEnds content ∧
      ¬ "--!>".toList <:+: normaliseLineEnds content :=
    ⟨fun h => hmark.1 (infix_of_infix_normaliseLineEnds (by decide) h),
      fun h => hmark.2 (infix_of_infix_normaliseLineEnds (by decide) h)⟩
  refine ⟨(normaliseLineEnds content).map visible, ?_⟩
  rw [hwritten, tokens_angle, readMarkup, readDeclaration, Text.after?_append]
  simp only [readComment_append_visible hstart' hmark', List.singleton_append]

theorem hides_eq (name : Text) : Depth.hides name = decide (name ∈ hiddenNames) := by
  simp only [Depth.hides, hiddenNames, List.map_cons, List.map_nil, List.mem_cons,
    List.not_mem_nil, or_false, Bool.decide_or]

theorem of_mem_hiddenNames {name : Text} (hname : name ∈ hiddenNames) :
    IsTagName name ∧ name ∉ voidElements ∧ contentModel? name ≠ none := by
  have hall : hiddenNames.all (fun name =>
      decide (IsTagName name ∧ name ∉ voidElements ∧ contentModel? name ≠ none)) = true := by
    decide +kernel
  exact of_decide_eq_true (List.all_eq_true.1 hall name hname)

theorem of_mem_voidElements {name : Text} (hname : name ∈ voidElements) :
    Depth.hides name = false ∧ contentModel? name = none := by
  have hall : voidElements.all (fun name =>
      decide (Depth.hides name = false ∧ contentModel? name = none)) = true := by
    decide +kernel
  exact of_decide_eq_true (List.all_eq_true.1 hall name hname)

/-- The body of a script or a style is read as text, up to the end tag. -/
theorem exists_tokens_hidden {name : Text} {attributes : List Attribute} {body : Text}
    (hname : IsTagName name) (hattributes : ∀ entry ∈ attributes, Quotable entry) (hbody : '<' ∉ body)
    (s : Text) :
    ∃ entries held, Textual held ∧
      tokens (normaliseLineEnds
        (tagSource name attributes false ++ (body ++ ((Piece.endTag name).write ++ s)))) =
      .startTag name entries false ::
        (held ++ .endTag name [] false :: tokens (normaliseLineEnds s)) := by
  have hnormal : '<' ∉ normaliseLineEnds body := fun hmem =>
    hbody (mem_of_mem_normaliseLineEnds (by decide) hmem)
  have hwritten : '\r' ∉ (Piece.endTag name).write := by
    simpa [Piece.write] using fun hmem => (hname.plain _ hmem).2 rfl
  obtain ⟨entries, hread⟩ := exists_tokens_normalise_tagSource hname hattributes false
    (body ++ ((Piece.endTag name).write ++ s))
  have hlegible : Legible (some name) (normaliseLineEnds body) true := .text hnormal
  have hend : (Token.endTag name [] false).WellFormed := hname
  have hfollows :
      Follows (some name) true ((Token.endTag name [] false).write ++ normaliseLineEnds s) :=
    .mark hend rfl (by simp [Token.closes?]) _
  obtain ⟨held, hheld, -, hinside⟩ :=
    exists_tokensInside_append (by simpa using hname) hlegible hfollows
  refine ⟨entries, held, hheld, ?_⟩
  rw [hread, normaliseLineEnds_append (by simp [Piece.write]),
    normaliseLineEnds_append_of_not_mem hwritten]
  simp only [Bool.false_eq_true, if_false]
  rw [Token.write] at hinside
  rw [hinside, tokens_endTag hname]

/-- Text that is not shown leaves no chunk. -/
theorem splitChunks_append_of_not_shows {depth : Depth} (hdepth : depth.shows = false)
    {held : List Token} (hheld : Textual held) {later : List Token}
    (hlater : (splitChunks depth later).1 = []) :
    splitChunks depth (held ++ later) = splitChunks depth later := by
  induction held with
  | nil => rfl
  | cons token held ih =>
    obtain ⟨htoken, hlast⟩ := List.forall_mem_cons.1 hheld
    have hnone : (([] : Text), (splitChunks depth later).2) = splitChunks depth later := by
      rw [← hlater]
    cases token with
    | text s => simp [splitChunks, ih hlast, hdepth]
    | null | parseError =>
      simp only [List.cons_append, splitChunks, Depth.after, ih hlast, hlater]
      exact hnone
    | _ => contradiction

/-- What reading keeps of the elements around a place. -/
def depthOf (ancestors : List Text) : Depth := ⟨ancestors.length, ancestors.any Depth.hides⟩

section

variable {ancestors : List Text}

theorem shows_depthOf (s : Text) :
    (depthOf ancestors).shows = TreeText.isVisible ⟨ancestors, s⟩ := by
  have hhidden : (!ancestors.any Depth.hides) = ancestors.all fun name => name ∉ hiddenNames := by
    rw [List.not_any_eq_all_not]
    simp only [hides_eq, decide_not]
  rw [TreeText.isVisible, Depth.shows, depthOf, hhidden]
  cases ancestors <;> rfl

theorem depthOf_after_start {name : Text} (hname : name ∉ voidElements) (entries : List Attribute) :
    (depthOf ancestors).after (.startTag name entries false) = depthOf (name :: ancestors) := by
  simp [depthOf, Depth.after, Depth.afterStart, hname, Bool.or_comm]

/-- A void element and one that closes itself are left at once. -/
theorem depthOf_after_single {name : Text} {selfClosing : Bool}
    (hname : selfClosing = true ∨ name ∈ voidElements) (entries : List Attribute) :
    (depthOf ancestors).after (.startTag name entries selfClosing) = depthOf ancestors := by
  cases selfClosing with
  | true => rfl
  | false =>
    have hvoid : name ∈ voidElements := by simpa using hname
    simp [depthOf, Depth.after, Depth.afterStart, hvoid, of_mem_voidElements hvoid]

theorem depthOf_after_end (hshown : ancestors.any Depth.hides = false) (name : Text) :
    (depthOf (name :: ancestors)).after (.endTag name [] false) = depthOf ancestors := by
  simp [depthOf, Depth.after, Depth.afterEnd, hshown]

end

namespace TreeText

def chunks (node : TreeText) : List Text := if node.isVisible then trimmedChunk node.text else []

theorem trimmedChunk_shown (ancestors : List Text) (s : Text) :
    trimmedChunk (if (depthOf ancestors).shows then s else []) = chunks ⟨ancestors, s⟩ := by
  rw [shows_depthOf s, chunks]
  split <;> rfl

/-- The chunks of some texts are the visible ones, each trimmed, the empty ones dropped. -/
theorem flatMap_chunks_eq (nodes : List TreeText) :
    nodes.flatMap chunks =
      ((nodes.filter isVisible).map fun node => node.text.trim).filter fun chunk => chunk ≠ [] := by
  induction nodes with
  | nil => rfl
  | cons node nodes ih =>
    rw [List.flatMap_cons, ih, List.filter_cons, chunks, trimmedChunk]
    cases node.isVisible with
    | false => rfl
    | true =>
      simp only [if_true, List.map_cons, List.filter_cons]
      cases node.text.trim <;> rfl

end TreeText

/-- A tag or a comment begins a text. It is visible by the elements around its place. -/
theorem splitChunks_mark {token : Token} (htoken : ∀ s, token ≠ .text s) {depth : Depth}
    {ancestors : List Text} (hdepth : depth.after token = depthOf ancestors) {later : List Token}
    {s : Text} {chunks : List Text}
    (hlater : splitChunks (depthOf ancestors) later =
      (if (depthOf ancestors).shows then s else [], chunks)) :
    splitChunks depth (token :: later) = ([], TreeText.chunks ⟨ancestors, s⟩ ++ chunks) := by
  rw [splitChunks_of_ne_text htoken, hdepth, hlater, TreeText.trimmedChunk_shown]

namespace Fragment

/-- Reading a well-formed fragment finds its texts, wherever it stands. What follows it must not go on
    with its last text. -/
theorem splitChunks_source {fragment : Fragment} (hfragment : fragment.WellFormed)
    {ancestors : List Text} (hshown : ancestors.any Depth.hides = false) {t : Text}
    (ht : (splitChunks (depthOf ancestors) (tokens (normaliseLineEnds t))).1 = []) :
    splitChunks (depthOf ancestors) (tokens (normaliseLineEnds (fragment.source ++ t))) =
      (if (depthOf ancestors).shows then (fragment.textsFrom ancestors).1 else [],
        (fragment.textsFrom ancestors).2.flatMap TreeText.chunks ++
          (splitChunks (depthOf ancestors) (tokens (normaliseLineEnds t))).2) := by
  induction fragment generalizing ancestors t with
  | nothing =>
    rw [source, textsFrom, List.nil_append, List.flatMap_nil, List.nil_append, ite_self, ← ht]
  | text s rest ih =>
    obtain ⟨hs, hrest⟩ := hfragment
    have hwritten : '\r' ∉ escapeText s := not_mem_escapeText (by decide) hs.2
    rw [source, List.append_assoc, normaliseLineEnds_append_of_not_mem hwritten,
      splitChunks_tokens_append (inOrder_escapeText hs), decodeText_escapeText, ih hrest hshown ht,
      textsFrom]
    cases (depthOf ancestors).shows <;> simp
  | comment content rest ih =>
    obtain ⟨hstart, hmark, hrest⟩ := hfragment
    obtain ⟨read, hread⟩ := exists_tokens_normalise_comment hstart hmark (rest.source ++ t)
    rw [source, List.append_assoc, hread, textsFrom, ite_self, List.flatMap_cons, List.append_assoc]
    exact splitChunks_mark (by simp) rfl (ih hrest hshown ht)
  | single name attributes selfClosing rest ih =>
    obtain ⟨hname, hattributes, hsingle, hrest⟩ := hfragment
    obtain ⟨entries, hread⟩ := exists_tokens_normalise_tagSource hname hattributes selfClosing
      (rest.source ++ t)
    have hinside (s : Text) : tokensInside (if selfClosing then none else some name) s = tokens s := by
      cases selfClosing with
      | true => rfl
      | false =>
        have hvoid : name ∈ voidElements := by simpa using hsingle
        simp [tokensInside, of_mem_voidElements hvoid]
    rw [source, List.append_assoc, hread, hinside, textsFrom, ite_self, List.flatMap_cons,
      List.append_assoc]
    exact splitChunks_mark (by simp) (depthOf_after_single hsingle entries) (ih hrest hshown ht)
  | element name attributes inside rest ihinside ihrest =>
    obtain ⟨hname, hattributes, ⟨hvoid, hmodel⟩, hinside, hrest⟩ := hfragment
    obtain ⟨entries, hread⟩ := exists_tokens_normalise_tagSource hname hattributes false
      (inside.source ++ ((Piece.endTag name).write ++ (rest.source ++ t)))
    have hshown' : (name :: ancestors).any Depth.hides = false := by
      have hhides : name ∉ hiddenNames := fun hmem => (of_mem_hiddenNames hmem).2.2 hmodel
      rw [List.any_cons, hides_eq, decide_eq_false hhides, hshown, Bool.or_false]
    -- The content ends at the end tag, behind which the depth is that of the rest.
    have hafter := splitChunks_mark (by simp) (depthOf_after_end hshown name) (ihrest hrest hshown ht)
    rw [← tokens_normalise_endTag hname] at hafter
    have hwithin := ihinside hinside hshown' (by rw [hafter])
    rw [source, List.append_assoc, List.append_assoc, List.append_assoc, hread]
    simp only [Bool.false_eq_true, if_false, tokensInside, hmodel]
    rw [splitChunks_mark (by simp) (depthOf_after_start hvoid entries) hwithin, hafter]
    simp [textsFrom]
  | hidden name attributes body rest ih =>
    obtain ⟨hhidden, hattributes, hbody, hrest⟩ := hfragment
    obtain ⟨hname, hvoid, -⟩ := of_mem_hiddenNames hhidden
    obtain ⟨entries, held, hheld, hread⟩ :=
      exists_tokens_hidden hname hattributes hbody (rest.source ++ t)
    have hshows : (depthOf (name :: ancestors)).shows = false := by
      simp [shows_depthOf body, TreeText.isVisible, hhidden]
    have hafter := splitChunks_mark (by simp) (depthOf_after_end hshown name) (ih hrest hshown ht)
    have hwithin : splitChunks (depthOf (name :: ancestors))
        (held ++ .endTag name [] false :: tokens (normaliseLineEnds (rest.source ++ t))) =
        (if (depthOf (name :: ancestors)).shows then body else [],
          TreeText.chunks ⟨ancestors, (rest.textsFrom ancestors).1⟩ ++
            ((rest.textsFrom ancestors).2.flatMap TreeText.chunks ++
              (splitChunks (depthOf ancestors) (tokens (normaliseLineEnds t))).2)) := by
      rw [hshows, if_neg Bool.false_ne_true, ← hafter]
      exact splitChunks_append_of_not_shows hshows hheld (by rw [hafter])
    rw [source, List.append_assoc, List.append_assoc, List.append_assoc, hread,
      splitChunks_mark (by simp) (depthOf_after_start hvoid entries) hwithin]
    simp [textsFrom]

/-- The visible text of a fragment is that of its tree: the texts inside elements and outside scripts
    and styles, in document order, each trimmed, the empty ones dropped, the others joined by spaces. -/
theorem plainText_source {fragment : Fragment} (hfragment : fragment.WellFormed) :
    plainText fragment.source =
      [' '].intercalate (((fragment.texts.filter TreeText.isVisible).map fun node =>
        node.text.trim).filter fun chunk => chunk ≠ []) := by
  have hshown : ([] : List Text).any Depth.hides = false := rfl
  have hnothing : (splitChunks (depthOf []) (tokens (normaliseLineEnds []))).1 = [] := by
    rw [normaliseLineEnds, tokens_nil, splitChunks]
  have hread := splitChunks_source hfragment hshown hnothing
  rw [List.append_nil, normaliseLineEnds, tokens_nil, splitChunks, List.append_nil] at hread
  have hstart : ({} : Depth) = depthOf [] := rfl
  rw [plainText, chunks_tokenize, Html.chunks, hstart, hread, TreeText.trimmedChunk_shown,
    ← List.flatMap_cons, TreeText.flatMap_chunks_eq, texts]

theorem plainText_source_paragraph_and_style :
    let paragraph : Fragment :=
      text "b & c".toList <| single "br".toList [] false <| text " d ".toList <|
        comment " - ".toList <| element "b".toList [] (text "<e>".toList nothing) nothing
    let fragment : Fragment :=
      text "a".toList <| element "p".toList [⟨"class".toList, "x y".toList⟩] paragraph <|
        hidden "style".toList [] "p > b".toList <| single "div".toList [] true <|
          text " f".toList nothing
    fragment.source = ("a<p class=\"x y\">b &amp; c<br> d <!-- - --><b>&lt;e&gt;</b></p>" ++
        "<style>p > b</style><div/> f").toList ∧
      fragment.WellFormed ∧ plainText fragment.source = "b & c d <e>".toList := by
  intro paragraph fragment
  have hfragment : fragment.WellFormed := by decide +kernel
  exact ⟨by decide +kernel, hfragment, (plainText_source hfragment).trans (by decide +kernel)⟩

end Fragment

end PostMarkup.Html
