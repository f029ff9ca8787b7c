import PostMarkup.Markdown.Heading
import PostMarkup.Markdown.HtmlBlock
import PostMarkup.Markdown.LinkPart

namespace PostMarkup.Markdown

inductive Container
  | quote
  /-- The mark that its items share, the number of the first, and whether no blank line separates
      what is in it. -/
  | list (mark : Char) (start : Nat) (tight : Bool)
  /-- The columns that lines of the item are indented by. -/
  | item (indent : Nat)
deriving DecidableEq

namespace Container

/-- The place after what a line needs to stay in the container. Only blank lines may be indented
    less than their item. -/
def enter? (container : Container) (cursor : Cursor) : Option Cursor :=
  match container with
  | quote =>
    let (_, inner) := cursor.takeSpaces 3
    if inner.rest.head? = some '>' then some (inner.step.takeSpaces 1).2 else none
  | list .. => some cursor
  | item indent =>
    let (taken, inner) := cursor.takeSpaces indent
    if taken = indent || inner.atEnd then some inner else none

/-- How many containers a line stays in, outermost first, and the place after what it needs to. -/
def enterAll : List Container → Cursor → Nat × Cursor
  | [], cursor => (0, cursor)
  | container :: inner, cursor =>
    match container.enter? cursor with
    | some next =>
      let (entered, last) := enterAll inner next
      (entered + 1, last)
    | none => (0, cursor)

end Container

/-- An open container with the blocks in it, the last one first. -/
structure Frame where
  container : Container
  blocks : List (Block Prose) := []

/-- The block that a container makes when it is left. -/
def Frame.close (frame : Frame) : Block Prose :=
  match frame.container with
  | .quote => .quote frame.blocks.reverse
  | .item _ => .item frame.blocks.reverse
  | .list mark start tight =>
    let items := frame.blocks.reverse
    .list (if mark = '.' || mark = ')' then some start else none)
      (if tight then items.map Block.tightenItem else items)

/-- A block that takes text line by line. Lines are kept with the last one first. -/
inductive Leaf
  | paragraph (task : Option Bool) (lines : List PassageLine)
  /-- Fenced code: the mark and length of its fence, and how far the fence is indented. -/
  | fenced (mark : Char) (count indent : Nat) (info : Text) (lines : List Text)
  /-- Indented code, and the blank lines after it that more code would make part of it. -/
  | indented (lines blank : List Text)
  | html (last : HtmlEnd) (lines : List Text)
  | table (columns : List Alignment) (head : List Text) (rows : List (List Text))

/-- The block that a leaf makes when it is left. -/
def Leaf.close : Leaf → Block Prose
  | paragraph task lines => .paragraph false task { passage := .ofLines lines.reverse }
  | fenced _ _ _ info lines => .code (info.takeWhile (· ≠ ' ')) lines.reverse.flatten
  | indented lines _ => .code [] lines.reverse.flatten
  | html _ lines => .html lines.reverse.flatten
  | table columns head rows =>
    let cell (s : Text) : Prose := { passage := .ofText s, inTable := true }
    .table columns (head.map cell) (rows.reverse.map (·.map cell))

structure Outline where
  /-- The open containers, innermost first. -/
  frames : List Frame := []
  /-- The finished blocks of the document itself, the last one first. -/
  blocks : List (Block Prose) := []
  leaf : Option Leaf := none
  /-- The last line was blank, which makes a list loose if the list goes on. -/
  afterBlank : Bool := false
  /-- The innermost item has begun with nothing on its line. -/
  emptyItem : Bool := false
  definitions : List Definition := []

namespace Outline

/-- The open containers, outermost first. -/
def containers (outline : Outline) : List Container := outline.frames.reverse.map Frame.container

/-- A block at the end of the innermost container. -/
def append (outline : Outline) (block : Block Prose) : Outline :=
  match outline.frames with
  | frame :: outer =>
    { outline with frames := { frame with blocks := block :: frame.blocks } :: outer }
  | [] => { outline with blocks := block :: outline.blocks }

/-- The leaf becomes a block. -/
def closeLeaf (outline : Outline) : Outline :=
  match outline.leaf with
  | some leaf => { outline with leaf := none }.append leaf.close
  | none => outline

/-- The innermost container becomes a block. Leaving a tight list forgets that an item was empty. -/
def leave (outline : Outline) : Outline :=
  match outline.frames with
  | frame :: outer =>
    let outline := { outline with frames := outer }.append frame.close
    match frame.container with
    | .list _ _ true => { outline with emptyItem := false }
    | _ => outline
  | [] => outline

/-- Leaves so many containers, the innermost first. -/
def leaveMany : Nat → Outline → Outline
  | 0, outline => outline
  | count + 1, outline => leaveMany count outline.leave

/-- A container is opened in the innermost one. -/
def enter (outline : Outline) (container : Container) : Outline :=
  { outline with frames := { container } :: outline.frames }

/-- An item that begins with two blank lines stays empty. -/
def finishEmptyItem (outline : Outline) : Outline :=
  let left :=
    match outline.frames with
    | { container := .item _, .. } :: _ =>
      if outline.emptyItem && outline.afterBlank then outline.leave else outline
    | _ => outline
  { left with emptyItem := false }

/-- A blank line between two items, or between the blocks of one, separates them. -/
def loosen : Frame → Frame
  | { container := .list mark start _, blocks } => { container := .list mark start false, blocks }
  | frame => frame

/-- What is not an item ends a list. If a blank line came before it, the list that it is in is
    loose. -/
def finishList (outline : Outline) : Outline :=
  let outline := outline.finishEmptyItem
  let outline :=
    match outline.frames with
    | { container := .list .., .. } :: _ => outline.leave
    | _ => outline
  if outline.afterBlank then
    let frames :=
      match outline.frames with
      | inner :: outer :: rest => inner :: loosen outer :: rest
      | frames => frames
    { outline with frames, afterBlank := false }
  else outline

/-- The list that an item with this marker belongs to is innermost: the one that is, if the marks
    agree, or a new one. -/
def continueList (outline : Outline) (marker : ListMarker) : Outline :=
  let outline := outline.finishEmptyItem
  let start (outline : Outline) : Outline :=
    { outline.enter (.list marker.mark marker.number true) with afterBlank := false }
  match outline.frames with
  | { container := .list mark first tight, blocks } :: outer =>
    if mark = marker.mark then
      let frame := { container := .list mark first (tight && !outline.afterBlank), blocks }
      { outline with frames := frame :: outer, afterBlank := false }
    else start outline.finishList
  | _ :: _ => start outline.finishList
  | [] => start outline

/-- A blank line outside of any leaf. A quote does not count it, and after it an empty item no
    longer asks for indentation. -/
def noteBlankLine (outline : Outline) : Outline :=
  match outline.frames with
  | { container := .quote, .. } :: _ => outline
  | { container := .item _, blocks } :: outer =>
    if outline.emptyItem then
      { outline with frames := { container := .item 0, blocks } :: outer, afterBlank := true }
    else { outline with afterBlank := true }
  | _ => { outline with afterBlank := true }

/-- A finished block that ends any list before it. -/
def addBlock (outline : Outline) (block : Block Prose) : Outline := outline.finishList.append block

/-- A leaf that ends any list before it. -/
def openLeaf (outline : Outline) (leaf : Leaf) : Outline :=
  { outline.finishList with leaf := some leaf }

/-- All blocks, once nothing is left to read. -/
def close (outline : Outline) : List (Block Prose) :=
  (leaveMany outline.frames.length outline.closeLeaf).blocks.reverse

end Outline

end PostMarkup.Markdown
