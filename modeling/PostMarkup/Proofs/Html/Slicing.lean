import PostMarkup.Html.Streaming
import PostMarkup.Proofs.Html.TextNodes

namespace PostMarkup.Html

namespace Delivery

/-- Whether a text node ends here. -/
def endsNode : Delivery → Bool
  | .token found => !found.isTextual
  | .endOfInput => true

def isFault : Delivery → Bool
  | .token found => found.isFault
  | .endOfInput => false

def chars : Delivery → Text
  | .token found => found.chars
  | .endOfInput => []

/-- A fault brings no text, and it does not end a node. -/
theorem of_isFault {delivery : Delivery} (hfault : delivery.isFault = true) :
    delivery.endsNode = false ∧ delivery.chars = [] := by
  obtain found | - := delivery
  · cases found <;> first | exact ⟨rfl, rfl⟩ | contradiction
  · contradiction

end Delivery

/-- Some text before a stream, in one piece with the text at its head. -/
def withText (s : Text) : List Delivery → List Delivery
  | .token (.text t) :: stream => .token (.text (s ++ t)) :: stream
  | stream => .token (.text s) :: stream

/-- A stream with neighbouring texts in one piece. -/
def joinTexts : List Delivery → List Delivery
  | [] => []
  | .token (.text s) :: stream => withText s (joinTexts stream)
  | delivery :: stream => delivery :: joinTexts stream

/-- A stream without its faults and with neighbouring texts in one piece. No trace is left of how the
    reader has sliced a text. -/
def merged (stream : List Delivery) : List Delivery :=
  joinTexts (stream.filter fun delivery => !delivery.isFault)

/-- The text of each node of a stream, empty nodes included. -/
def nodeTexts (stream : List Delivery) : List Text :=
  (stream.splitOnP Delivery.endsNode).map fun node => node.flatMap Delivery.chars

/-- The deliveries that end nodes. The last node of a stream ends with the stream itself. -/
def breaks (stream : List Delivery) : List Delivery := stream.filter Delivery.endsNode

theorem nodeTexts_nil : nodeTexts [] = [[]] := rfl

theorem breaks_nil : breaks [] = [] := rfl

section

variable {delivery : Delivery} (stream : List Delivery)

theorem nodeTexts_cons_of_endsNode (hends : delivery.endsNode = true) :
    nodeTexts (delivery :: stream) = [] :: nodeTexts stream := by
  simp [nodeTexts, List.splitOnP_cons_eq_if_modifyHead, hends]

theorem nodeTexts_cons (hends : delivery.endsNode = false) :
    nodeTexts (delivery :: stream) = (nodeTexts stream).modifyHead (delivery.chars ++ ·) := by
  rw [nodeTexts, nodeTexts, List.splitOnP_cons_eq_if_modifyHead, hends]
  cases stream.splitOnP Delivery.endsNode <;> simp

theorem breaks_cons_of_endsNode (hends : delivery.endsNode = true) :
    breaks (delivery :: stream) = delivery :: breaks stream :=
  List.filter_cons_of_pos hends

theorem breaks_cons (hends : delivery.endsNode = false) :
    breaks (delivery :: stream) = breaks stream :=
  List.filter_cons_of_neg (by simp [hends])

/-- Between two breaks lies one node. -/
theorem length_nodeTexts : (nodeTexts stream).length = (breaks stream).length + 1 := by
  induction stream with
  | nil => rfl
  | cons delivery stream ih =>
    cases hends : delivery.endsNode with
    | true =>
      rw [nodeTexts_cons_of_endsNode _ hends, breaks_cons_of_endsNode _ hends, List.length_cons, ih,
        List.length_cons]
    | false => rw [nodeTexts_cons _ hends, breaks_cons _ hends, List.length_modifyHead, ih]

theorem exists_cons_nodeTexts : ∃ node nodes, nodeTexts stream = node :: nodes := by
  refine List.exists_cons_of_length_pos ?_
  rw [length_nodeTexts]
  exact Nat.succ_pos _

end

/-- The same text nodes, with the same deliveries between them. -/
structure SameNodes (first second : List Delivery) : Prop where
  texts : nodeTexts first = nodeTexts second
  breaks : breaks first = breaks second

namespace SameNodes

theorem refl (stream : List Delivery) : SameNodes stream stream := ⟨rfl, rfl⟩

theorem symm {first second : List Delivery} (h : SameNodes first second) :
    SameNodes second first :=
  ⟨h.texts.symm, h.breaks.symm⟩

theorem trans {first second third : List Delivery} (h : SameNodes first second)
    (hlater : SameNodes second third) : SameNodes first third :=
  ⟨h.texts.trans hlater.texts, h.breaks.trans hlater.breaks⟩

theorem cons {first second : List Delivery} (h : SameNodes first second) (delivery : Delivery) :
    SameNodes (delivery :: first) (delivery :: second) := by
  cases hends : delivery.endsNode with
  | true =>
    constructor
    · rw [nodeTexts_cons_of_endsNode _ hends, nodeTexts_cons_of_endsNode _ hends, h.texts]
    · rw [breaks_cons_of_endsNode _ hends, breaks_cons_of_endsNode _ hends, h.breaks]
  | false =>
    constructor
    · rw [nodeTexts_cons _ hends, nodeTexts_cons _ hends, h.texts]
    · rw [breaks_cons _ hends, breaks_cons _ hends, h.breaks]

end SameNodes

theorem sameNodes_withText (s : Text) (stream : List Delivery) :
    SameNodes (withText s stream) (.token (.text s) :: stream) := by
  have htext (t : Text) : (Delivery.token (.text t)).endsNode = false := rfl
  unfold withText
  split
  · next t later =>
    obtain ⟨node, nodes, hnodes⟩ := exists_cons_nodeTexts later
    constructor
    · simp [nodeTexts_cons _ (htext _), hnodes, Delivery.chars, Token.chars]
    · simp only [breaks_cons _ (htext _)]
  · exact .refl _

theorem sameNodes_joinTexts (stream : List Delivery) : SameNodes (joinTexts stream) stream := by
  fun_induction joinTexts stream with
  | case1 => exact .refl []
  | case2 s stream ih => exact (sameNodes_withText s _).trans (ih.cons _)
  | case3 delivery stream _ ih => exact ih.cons delivery

theorem sameNodes_of_isFault {delivery : Delivery} (hfault : delivery.isFault = true)
    (stream : List Delivery) : SameNodes stream (delivery :: stream) := by
  obtain ⟨hends, hchars⟩ := Delivery.of_isFault hfault
  obtain ⟨node, nodes, hnodes⟩ := exists_cons_nodeTexts stream
  constructor
  · rw [nodeTexts_cons _ hends, hchars, hnodes]
    rfl
  · rw [breaks_cons _ hends]

/-- Merging a stream leaves its nodes and what lies between them. -/
theorem sameNodes_merged (stream : List Delivery) : SameNodes (merged stream) stream := by
  refine (sameNodes_joinTexts _).trans ?_
  induction stream with
  | nil => exact .refl []
  | cons delivery stream ih =>
    cases hfault : delivery.isFault with
    | true =>
      rw [List.filter_cons_of_neg (by simp [hfault])]
      exact ih.trans (sameNodes_of_isFault hfault stream)
    | false =>
      rw [List.filter_cons_of_pos (by simp [hfault])]
      exact ih.cons delivery

namespace Writer

variable {σ : Type} (writer : Writer σ)

/-- What is written of a delivery that ends a node. -/
def breakPieces : Delivery → List Piece
  | .token (.startTag name attributes selfClosing) =>
    let tag := writer.amend ⟨name, attributes, selfClosing⟩
    [.startTag tag.name tag.attributes tag.selfClosing]
  | .token (.endTag name _ _) => [.endTag name]
  | .token (.comment content) => if writer.keepComments then [.comment content] else []
  | _ => []

/-- The place after a delivery, which only tags change. -/
def after (place : Place σ) : Delivery → Place σ
  | .token (.startTag name attributes selfClosing) =>
    let tag := writer.amend ⟨name, attributes, selfClosing⟩
    writer.afterStart place tag.name tag.selfClosing
  | .token (.endTag name _ _) => writer.afterEnd place name
  | _ => place

/-- The content model that a delivery calls for. -/
def answer : Delivery → Option ContentModel
  | .token (.startTag name attributes selfClosing) =>
    let tag := writer.amend ⟨name, attributes, selfClosing⟩
    if tag.selfClosing then none else contentModel? tag.name
  | _ => none

/-- The pieces of text nodes and of what ends them. Each node is written whole, for the place that the
    deliveries before it lead to. After the last node stands the end of the input, which writes
    nothing. -/
def assemble (place : Place σ) (nodes : List Text) (ends : List Delivery) : List Piece :=
  (((ends.scanl writer.after place).zip nodes).zip (ends ++ [.endOfInput])).flatMap fun entry =>
    writer.textPieces entry.1.1 entry.1.2 ++ writer.breakPieces entry.2

theorem assemble_nil (place : Place σ) (node : Text) :
    writer.assemble place [node] [] = writer.textPieces place node := by
  simp [assemble, breakPieces]

theorem assemble_cons (place : Place σ) (node : Text) (nodes : List Text) (delivery : Delivery)
    (ends : List Delivery) :
    writer.assemble place (node :: nodes) (delivery :: ends) =
      writer.textPieces place node ++ writer.breakPieces delivery ++
        writer.assemble (writer.after place delivery) nodes ends := by
  simp [assemble, List.scanl_cons]

theorem flush_eq (progress : Progress σ) :
    writer.flush progress =
      ⟨progress.place, [],
        progress.written ++ (writer.textPieces progress.place progress.held).flatMap Piece.write⟩ := by
  obtain ⟨place, held, written⟩ := progress
  cases held <;> simp [flush, Style.textPieces, Piece.write]

theorem receive_of_not_endsNode (progress : Progress σ) {delivery : Delivery}
    (hends : delivery.endsNode = false) :
    writer.receive progress delivery =
      ({ progress with held := progress.held ++ delivery.chars }, writer.answer delivery) := by
  obtain found | - := delivery
  · cases found with
    | text s => rfl
    | null | parseError => simp [receive, Delivery.chars, Token.chars, answer]
    | _ => contradiction
  · contradiction

/-- What ends a node has the held text written first, for the place before it. -/
theorem receive_of_endsNode (progress : Progress σ) {delivery : Delivery}
    (hends : delivery.endsNode = true) :
    writer.receive progress delivery =
      (⟨writer.after progress.place delivery, [],
        progress.written ++ (writer.textPieces progress.place progress.held ++
          writer.breakPieces delivery).flatMap Piece.write⟩, writer.answer delivery) := by
  obtain found | - := delivery
  · cases found with
    | startTag name attributes selfClosing =>
      cases hclosing : (writer.amend ⟨name, attributes, selfClosing⟩).selfClosing <;>
        simp [receive, flush_eq, Progress.add, after, breakPieces, answer, hclosing,
          Style.afterStart]
    | endTag name attributes selfClosing =>
      simp [receive, flush_eq, Progress.add, after, breakPieces, answer]
    | comment content =>
      cases hcomments : writer.keepComments <;>
        simp [receive, flush_eq, Progress.add, after, breakPieces, answer, hcomments]
    | documentType => simp [receive, flush_eq, after, breakPieces, answer]
    | _ => contradiction
  · simp [receive, flush_eq, after, breakPieces, answer]

/-- Whatever is held when a stream begins belongs to its first node. -/
theorem written_run (progress : Progress σ) (stream : List Delivery) :
    (writer.flush (writer.run progress stream).1).written =
      progress.written ++ (writer.assemble progress.place
        ((nodeTexts stream).modifyHead (progress.held ++ ·)) (breaks stream)).flatMap
          Piece.write := by
  -- The held text is the part of the first node that has come already; a break leaves none.
  induction stream generalizing progress with
  | nil => simp [run, flush_eq, nodeTexts_nil, breaks_nil, assemble_nil]
  | cons delivery stream ih =>
    obtain ⟨node, nodes, hnodes⟩ := exists_cons_nodeTexts stream
    cases hends : delivery.endsNode with
    | true =>
      rw [run, writer.receive_of_endsNode progress hends, ih, nodeTexts_cons_of_endsNode _ hends,
        breaks_cons_of_endsNode _ hends, hnodes]
      simp [assemble_cons]
    | false =>
      rw [run, writer.receive_of_not_endsNode progress hends, ih, nodeTexts_cons _ hends,
        breaks_cons _ hends, hnodes]
      simp

theorem output_eq (stream : List Delivery) :
    writer.output stream =
      (writer.assemble writer.start (nodeTexts stream) (breaks stream)).flatMap Piece.write := by
  obtain ⟨node, nodes, hnodes⟩ := exists_cons_nodeTexts stream
  rw [output, written_run, hnodes]
  rfl

theorem snd_run (progress : Progress σ) (stream : List Delivery) :
    (writer.run progress stream).2 = stream.map writer.answer := by
  induction stream generalizing progress with
  | nil => rfl
  | cons delivery stream ih =>
    have hanswer : (writer.receive progress delivery).2 = writer.answer delivery := by
      cases hends : delivery.endsNode with
      | true => rw [writer.receive_of_endsNode progress hends]
      | false => rw [writer.receive_of_not_endsNode progress hends]
    rw [List.map_cons, ← hanswer, ← ih (writer.receive progress delivery).1]
    rfl

theorem answered_eq (stream : List Delivery) :
    writer.answered stream = stream.map fun delivery => (delivery, writer.answer delivery) := by
  rw [answered, snd_run, List.map_prod_left_eq_zip]

theorem answer_of_not_endsNode {delivery : Delivery} (hends : delivery.endsNode = false) :
    writer.answer delivery = none := by
  obtain found | - := delivery
  · cases found <;> first | rfl | contradiction
  · rfl

theorem fst_run_append (progress : Progress σ) (stream more : List Delivery) :
    (writer.run progress (stream ++ more)).1 =
      (writer.run (writer.run progress stream).1 more).1 := by
  induction stream generalizing progress with
  | nil => rfl
  | cons delivery stream ih => exact ih (writer.receive progress delivery).1

/-- The end of the input has the held text written, as the end of the stream does anyway. -/
theorem output_concat_endOfInput (stream : List Delivery) :
    writer.output (stream ++ [.endOfInput]) = writer.output stream := by
  have hlast (progress : Progress σ) :
      (writer.run progress [.endOfInput]).1 = writer.flush progress := rfl
  rw [output, fst_run_append, hlast, output]
  simp [flush_eq, Style.textPieces]

end Writer

namespace Style

variable {σ : Type} (style : Style σ)

theorem split_of_isTextual (place : Place σ) {token : Token} (htoken : token.isTextual = true)
    (tokens : List Token) :
    style.split place (token :: tokens) =
      (token.chars ++ (style.split place tokens).1, (style.split place tokens).2) := by
  cases token <;> first | rfl | contradiction

theorem split_of_not_isTextual (place : Place σ) {token : Token} (htoken : token.isTextual = false)
    (tokens : List Token) :
    let next := style.writer.after place (.token token)
    style.split place (token :: tokens) = ([], style.writer.breakPieces (.token token) ++
      (style.textPieces next (style.split next tokens).1 ++ (style.split next tokens).2)) := by
  cases token with
  | comment content =>
    simp only [split, Writer.breakPieces, Writer.after, List.append_assoc]
    rfl
  | _ => first | rfl | contradiction

/-- The pieces of a style are those that its writer puts together. -/
theorem split_eq_assemble (place : Place σ) (held : Text) (tokens : List Token) :
    style.textPieces place (held ++ (style.split place tokens).1) ++ (style.split place tokens).2 =
      style.writer.assemble place ((nodeTexts (tokens.map .token)).modifyHead (held ++ ·))
        (breaks (tokens.map .token)) := by
  induction tokens generalizing place held with
  | nil =>
    have hnode : style.writer.assemble place [held] [] = style.textPieces place held :=
      style.writer.assemble_nil place held
    simp [split, nodeTexts_nil, breaks_nil, hnode]
  | cons token tokens ih =>
    obtain ⟨node, nodes, hnodes⟩ := exists_cons_nodeTexts (tokens.map .token)
    rw [List.map_cons]
    cases htextual : token.isTextual with
    | true =>
      have hends : (Delivery.token token).endsNode = false := by simp [Delivery.endsNode, htextual]
      have hlater := ih place (held ++ token.chars)
      rw [hnodes] at hlater
      rw [style.split_of_isTextual place htextual, nodeTexts_cons _ hends, breaks_cons _ hends, hnodes]
      simpa [Delivery.chars] using hlater
    | false =>
      have hends : (Delivery.token token).endsNode = true := by simp [Delivery.endsNode, htextual]
      have hlater := ih (style.writer.after place (.token token)) []
      have hnode (place : Place σ) (s : Text) :
          style.writer.textPieces place s = style.textPieces place s := rfl
      rw [hnodes] at hlater
      simp only [List.nil_append, List.modifyHead_cons] at hlater
      rw [style.split_of_not_isTextual place htextual, nodeTexts_cons_of_endsNode _ hends,
        breaks_cons_of_endsNode _ hends, hnodes, List.modifyHead_cons, Writer.assemble_cons,
        ← hlater, hnode, List.append_assoc]

/-- What a style writes is what its writer puts out. -/
theorem output_writer (tokens : List Token) :
    style.writer.output (tokens.map .token ++ [.endOfInput]) = style.write tokens := by
  have hpieces := style.split_eq_assemble style.start [] tokens
  have hstart : style.writer.start = style.start := rfl
  obtain ⟨node, nodes, hnodes⟩ := exists_cons_nodeTexts (tokens.map .token)
  rw [hnodes] at hpieces
  rw [Writer.output_concat_endOfInput, Writer.output_eq, hnodes, hstart, write, pieces]
  simpa using congrArg (List.flatMap Piece.write) hpieces.symm

end Style

/-- Streams that differ only in faults and in how text is sliced are written alike, and what ends their
    nodes is answered alike. Every stream is written node by node: one node lies between two breaks, it
    is written as a whole for the place after the breaks before it, and text has no answer. What a
    style writes is what its writer puts out. -/
theorem Writer.output_eq_of_merged_eq {σ : Type} (writer : Writer σ) {first second : List Delivery}
    (hsame : merged first = merged second) :
    (writer.output first = writer.output second ∧
      (writer.answered first).filter (·.1.endsNode) =
        (writer.answered second).filter (·.1.endsNode)) ∧
    (∀ stream : List Delivery,
      (nodeTexts stream).length = (breaks stream).length + 1 ∧
      writer.output stream =
        (writer.assemble writer.start (nodeTexts stream) (breaks stream)).flatMap Piece.write ∧
      ∀ entry ∈ writer.answered stream, entry.1.endsNode = false → entry.2 = none) ∧
    ∀ (style : Style σ) (tokens : List Token),
      style.writer.output (tokens.map .token ++ [.endOfInput]) = style.write tokens := by
  have hnodes : SameNodes first second :=
    (sameNodes_merged first).symm.trans (hsame ▸ sameNodes_merged second)
  have hanswers (stream : List Delivery) : (writer.answered stream).filter (·.1.endsNode) =
      (breaks stream).map fun delivery => (delivery, writer.answer delivery) := by
    rw [writer.answered_eq, List.filter_map]
    rfl
  refine ⟨⟨?_, ?_⟩, fun stream => ⟨length_nodeTexts stream, writer.output_eq stream, ?_⟩,
    Style.output_writer⟩
  · rw [writer.output_eq, writer.output_eq, hnodes.texts, hnodes.breaks]
  · rw [hanswers, hanswers, hnodes.breaks]
  · rw [writer.answered_eq, List.forall_mem_map]
    intro delivery _ hends
    exact writer.answer_of_not_endsNode hends

/-- A dash that comes in two slices is one dash, and a tag that is given another name is answered by
    that name. -/
theorem output_of_sliced_dash :
    let writer : Writer SkipZone :=
      { stored with amend := fun tag => { tag with name := "title".toList } }
    let opening : Delivery := .token (.startTag "p".toList [] false)
    let closing : Delivery := .token (.endTag "p".toList [] false)
    let first := [opening, .token (.text "a -".toList), .token .parseError, .token .null,
      .token (.text "- b".toList), closing, .endOfInput]
    let second := [opening, .token (.text "a -- b".toList), closing, .endOfInput]
    merged first = merged second ∧
      writer.output first = "<title>a&nbsp;&mdash; b</p>".toList ∧
      (writer.answered first).filter (·.1.endsNode) =
        [(opening, some .escapableText), (closing, none), (.endOfInput, none)] := by
  intro writer opening closing first second
  have hsame : merged first = merged second := by decide +kernel
  obtain ⟨⟨houtput, hanswers⟩, -, -⟩ := writer.output_eq_of_merged_eq hsame
  refine ⟨hsame, ?_, ?_⟩
  · rw [houtput]
    decide +kernel
  · rw [hanswers]
    decide +kernel

end PostMarkup.Html
