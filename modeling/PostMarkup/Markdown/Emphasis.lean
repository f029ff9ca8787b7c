import PostMarkup.Markdown.Inline

namespace PostMarkup.Markdown

/-- An opening run that may still be matched: how many of its marks are left, and the content that
    came before it, the last part first. -/
structure Opener where
  run : Run
  left : Nat
  before : List Inline

/-- Inline content with runs still open in it, the innermost first, and the content since the
    innermost one, the last part first. -/
structure OpenContent where
  openers : List Opener := []
  content : List Inline := []

/-- Marks as text. -/
def markText (mark : Char) (count : Nat) : Inline := .text (List.replicate count mark)

/-- Marks of a run as text, with what is shown after it. -/
def Run.remainder (run : Run) (left : Nat) : Inline :=
  .text (List.replicate left run.mark ++ run.trailing)

/-- Content between so many pairs of marks. Two pairs make it strong, a single one is outermost. -/
def style (mark : Char) : Nat → List Inline → List Inline
  | 0, content => content
  | 1, content => [.styled (if mark = '~' then .deleted else .emphasis) content]
  | count + 2, content =>
    style mark count [.styled (if mark = '~' then .deleted else .strong) content]

namespace OpenContent

/-- Content at the end. -/
def add (state : OpenContent) (inline : Inline) : OpenContent :=
  { state with content := inline :: state.content }

/-- The innermost opening run becomes text. -/
def dropOpener (state : OpenContent) : OpenContent :=
  match state.openers with
  | opener :: outer =>
    ⟨outer, state.content ++ opener.run.remainder opener.left :: opener.before⟩
  | [] => state

/-- So many opening runs become text. -/
def dropOpeners : Nat → OpenContent → OpenContent
  | 0, state => state
  | count + 1, state => dropOpeners count state.dropOpener

/-- Opening runs of tildes become text, and the content on either side of them is joined. -/
def dropTildes : List Opener → List Inline → OpenContent
  | [], content => ⟨[], content⟩
  | opener :: outer, content =>
    if opener.run.mark = '~' then
      dropTildes outer (content ++ opener.run.remainder opener.left :: opener.before)
    else
      let below := dropTildes outer opener.before
      ⟨{ opener with before := below.content } :: below.openers, content⟩

/-- A closing run of which so many marks are left is matched as far as it goes, and the marks that
    remain are counted. -/
def closeRun (run : Run) : Nat → Nat → OpenContent → Nat × OpenContent
  | 0, left, state => (left, state)
  | room + 1, left, state =>
    if left = 0 then (0, state)
    else
      match state.openers.findIdx? fun opener => opener.run.closesRun run with
      | none => (left, if run.mark = '~' then dropTildes state.openers state.content else state)
      | some index =>
        let state := dropOpeners index state
        match state.openers with
        | [] => (left, state)
        | opener :: outer =>
          let count := min left opener.left
          let styled := style run.mark count state.content.reverse
          let rest : OpenContent :=
            if count < opener.left then
              ⟨{ opener with left := opener.left - count } :: outer, styled⟩
            else ⟨outer, styled ++ opener.before⟩
          closeRun run room (left - count) rest

/-- The content with one more piece. -/
def push (state : OpenContent) : Piece → OpenContent
  | .inline content => state.add content
  | .run run =>
    let (left, state) := if run.canClose then closeRun run run.count run.count state
      else (run.count, state)
    if left = 0 then state
    else if run.canOpen then ⟨⟨run, left, state.content⟩ :: state.openers, []⟩
    else state.add (run.remainder left)

/-- The content, once no run can be closed any more. Opening runs that are left are text. -/
def close (state : OpenContent) : List Inline :=
  state.openers.foldl
    (fun later opener => opener.before.reverse ++ opener.run.remainder opener.left :: later)
    state.content.reverse

end OpenContent

/-- Inline content with its runs matched. -/
def matchRuns (pieces : List Piece) : List Inline := (pieces.foldl OpenContent.push {}).close

end PostMarkup.Markdown
