import PostMarkup.Proofs.Html.JoinedText
import PostMarkup.Proofs.Html.PlainText
import PostMarkup.Proofs.Html.Rewriting

namespace PostMarkup.Html

/-- A token within a text node that brings no text. -/
def Token.isFault : Token → Bool
  | null => true
  | parseError => true
  | _ => false

/-- The character data between two marks, and the depth of its place. -/
structure TextNode where
  depth : Depth
  tokens : List Token
deriving DecidableEq

/-- The text that faults leave together. -/
def partsOf : List Token → List Text
  | [] => [[]]
  | token :: tokens =>
    if token.isFault then [] :: partsOf tokens else lengthen token.chars (partsOf tokens)

namespace TextNode

def parts (node : TextNode) : List Text := partsOf node.tokens

/-- The whole decoded text. -/
def text (node : TextNode) : Text := node.tokens.flatMap Token.chars

def isShown (node : TextNode) : Bool := node.depth.shows

/-- The chunks that the parts of a node give, if the node is shown. -/
def chunks (node : TextNode) : List Text :=
  if node.isShown then node.parts.flatMap trimmedChunk else []

end TextNode

/-- The tokens of the node at the head, and the nodes after it. -/
def nodesFrom (depth : Depth) : List Token → List Token × List TextNode
  | [] => ([], [])
  | token :: tokens =>
    if token.isTextual then
      let later := nodesFrom depth tokens
      (token :: later.1, later.2)
    else
      let later := nodesFrom (depth.after token) tokens
      ([], ⟨depth.after token, later.1⟩ :: later.2)

/-- The text nodes of some tokens, empty ones included. -/
def textNodes (tokens : List Token) : List TextNode :=
  let later := nodesFrom {} tokens
  ⟨{}, later.1⟩ :: later.2

theorem exists_cons_partsOf (tokens : List Token) :
    ∃ part parts, partsOf tokens = part :: parts := by
  induction tokens with
  | nil => exact ⟨[], [], rfl⟩
  | cons token tokens ih =>
    obtain ⟨part, parts, hparts⟩ := ih
    rw [partsOf, hparts]
    split
    · exact ⟨_, _, rfl⟩
    · exact ⟨_, _, rfl⟩

theorem flatten_partsOf (tokens : List Token) :
    (partsOf tokens).flatten = tokens.flatMap Token.chars := by
  induction tokens with
  | nil => rfl
  | cons token tokens ih =>
    rw [partsOf, List.flatMap_cons, ← ih]
    split
    · next hfault =>
      have hnone : token.chars = [] := by cases token <;> first | rfl | contradiction
      rw [hnone, List.flatten_cons]
    · exact flatten_lengthen _ _

/-- The chunk that is open at the head of a node, and those after it, as far as they are shown. -/
def openChunk (depth : Depth) (parts : List Text) : Text × List Text :=
  if depth.shows then (parts.headD [], parts.tail.flatMap trimmedChunk) else ([], [])

/-- A fault ends the chunk that is open, and so does the end of the node. -/
theorem chunks_eq_openChunk (node : TextNode) :
    node.chunks = trimmedChunk (openChunk node.depth node.parts).1 ++
      (openChunk node.depth node.parts).2 := by
  obtain ⟨part, parts, hparts⟩ := exists_cons_partsOf node.tokens
  rw [TextNode.chunks, TextNode.isShown, openChunk, TextNode.parts, hparts]
  cases node.depth.shows <;> rfl

theorem openChunk_nil_cons (node : TextNode) :
    openChunk node.depth ([] :: node.parts) = ([], node.chunks) := by
  cases hshows : node.depth.shows <;> simp [openChunk, TextNode.chunks, TextNode.isShown, hshows]

theorem openChunk_lengthen (depth : Depth) (s : Text) (parts : List Text) :
    openChunk depth (lengthen s parts) =
      ((if depth.shows then s else []) ++ (openChunk depth parts).1, (openChunk depth parts).2) := by
  cases parts <;> cases hshows : depth.shows <;> simp [openChunk, lengthen, hshows]

/-- Reading for visible text finds the chunks of the node at the head and those of the nodes after
    it. -/
theorem splitChunks_eq (depth : Depth) (tokens : List Token) :
    splitChunks depth tokens =
      ((openChunk depth (partsOf (nodesFrom depth tokens).1)).1,
        (openChunk depth (partsOf (nodesFrom depth tokens).1)).2 ++
          (nodesFrom depth tokens).2.flatMap TextNode.chunks) := by
  induction tokens generalizing depth with
  | nil => cases hshows : depth.shows <;> simp [splitChunks, nodesFrom, partsOf, openChunk, hshows]
  | cons token tokens ih =>
    cases hfault : token.isFault with
    | true =>
      have htext : ∀ s, token ≠ .text s := by
        rintro s rfl
        contradiction
      have hafter : depth.after token = depth := by
        cases token <;> first | rfl | contradiction
      have htextual : token.isTextual = true := by
        cases token <;> first | rfl | contradiction
      let node : TextNode := ⟨depth, (nodesFrom depth tokens).1⟩
      have hopen := openChunk_nil_cons node
      have hchunks := chunks_eq_openChunk node
      simp only [node, TextNode.parts] at hopen hchunks
      rw [splitChunks_of_ne_text htext, hafter, ih, nodesFrom, if_pos htextual]
      simp only [partsOf, hfault, if_true, hopen, hchunks, List.append_assoc]
    | false =>
      cases htextual : token.isTextual with
      | true =>
        obtain ⟨s, rfl⟩ : ∃ s, token = .text s := by
          cases token <;> first | exact ⟨_, rfl⟩ | contradiction
        rw [splitChunks, ih, nodesFrom, if_pos htextual]
        simp only [partsOf, hfault, Bool.false_eq_true, if_false, openChunk_lengthen, Token.chars]
      | false =>
        have htext : ∀ s, token ≠ .text s := by
          rintro s rfl
          contradiction
        let node : TextNode := ⟨depth.after token, (nodesFrom (depth.after token) tokens).1⟩
        have hchunks := chunks_eq_openChunk node
        have hnone : openChunk depth (partsOf []) = ([], []) := by
          cases hshows : depth.shows <;> simp [openChunk, partsOf, hshows]
        simp only [node, TextNode.parts] at hchunks
        rw [splitChunks_of_ne_text htext, ih, nodesFrom, htextual]
        simp only [Bool.false_eq_true, if_false, hnone, List.flatMap_cons, hchunks,
          List.nil_append, List.append_assoc]

theorem flatMap_chunks (nodes : List TextNode) :
    nodes.flatMap TextNode.chunks =
      (nodes.filter TextNode.isShown).flatMap fun node => node.parts.flatMap trimmedChunk := by
  induction nodes with
  | nil => rfl
  | cons node nodes ih =>
    rw [List.flatMap_cons, ih, List.filter_cons, TextNode.chunks]
    split <;> rfl

theorem chunks_eq_textNodes (tokens : List Token) :
    chunks tokens = (textNodes tokens).flatMap TextNode.chunks := by
  rw [chunks, splitChunks_eq, textNodes, List.flatMap_cons, chunks_eq_openChunk,
    List.append_assoc]
  rfl

/-- The nodes lie between the marks, each at the depth that the marks before it lead to. -/
theorem nodesFrom_between (depth : Depth) (tokens : List Token) :
    let later := nodesFrom depth tokens
    later.1 :: later.2.map TextNode.tokens = tokens.splitOnP (fun token => !token.isTextual) ∧
      depth :: later.2.map TextNode.depth =
        (tokens.filter fun token => !token.isTextual).scanl Depth.after depth := by
  induction tokens generalizing depth with
  | nil => simp [nodesFrom]
  | cons token tokens ih =>
    rw [List.splitOnP_cons_eq_if_modifyHead]
    cases htextual : token.isTextual with
    | true =>
      obtain ⟨htokens, hdepths⟩ := ih depth
      simp [nodesFrom, htextual, ← htokens, ← hdepths]
    | false =>
      obtain ⟨htokens, hdepths⟩ := ih (depth.after token)
      simp [nodesFrom, htextual, ← htokens, ← hdepths]

/-- The visible text of a fragment, node by node: the parts of each node that is shown, trimmed and
    joined by single spaces. It is that of the whole nodes, each trimmed and one chunk at most, if and
    only if at every fault in a node one space stands between the visible text before and after. -/
theorem plainText_text_nodes (input : Text) :
    let nodes := textNodes (tokenize input)
    let shown := nodes.filter TextNode.isShown
    nodes.map TextNode.tokens = (tokenize input).splitOnP (fun token => !token.isTextual) ∧
      nodes.map TextNode.depth =
        ((tokenize input).filter fun token => !token.isTextual).scanl Depth.after {} ∧
      (∀ node ∈ nodes, node.parts.flatten = node.text) ∧
      plainText input =
        [' '].intercalate (shown.flatMap fun node => node.parts.flatMap trimmedChunk) ∧
      (plainText input = [' '].intercalate (shown.flatMap fun node => trimmedChunk node.text) ↔
        ∀ node ∈ shown, Spaced node.parts) := by
  intro nodes shown
  obtain ⟨htokens, hdepths⟩ := nodesFrom_between {} (tokenize input)
  have hplain : plainText input =
      [' '].intercalate (shown.flatMap fun node => node.parts.flatMap trimmedChunk) := by
    rw [plainText, chunks_eq_textNodes, flatMap_chunks]
  refine ⟨htokens, hdepths, fun node _ => flatten_partsOf node.tokens, hplain, ?_⟩
  have hiff := intercalate_flatMap_eq_iff (shown.map TextNode.parts)
  rw [List.flatMap_map, List.flatMap_map, List.forall_mem_map] at hiff
  rw [hplain, ← hiff]
  simp only [TextNode.parts, flatten_partsOf, TextNode.text]

/-- Behind a `<` that is text the reader notes a fault, and the text goes on as a chunk of its own. -/
theorem parseError_divides_text_node :
    let input := "<p>a<1</p>".toList
    let node : TextNode := ⟨⟨1, false⟩, [.text ['a'], .parseError, .text ['<'], .text ['1']]⟩
    textNodes (tokenize input) = [⟨{}, []⟩, node, ⟨{}, []⟩] ∧ node.isShown = true ∧
      trimmedChunk node.text = ["a<1".toList] ∧ ¬ Spaced node.parts ∧
      plainText input = "a <1".toList := by
  decide +kernel

end PostMarkup.Html
