import PostMarkup.Markdown.Document
import PostMarkup.Markdown.Pieces

namespace PostMarkup.Markdown

namespace Block

mutual

/-- A block with its prose read. The state is what the targets of labels may still put into the
    document. -/
def readProse (definitions : List Definition) : Block Prose → StateM Nat (Block (List Inline))
  | paragraph tight box text => do return paragraph tight box (← text.inlines definitions)
  | heading level attributes box text => do
    return heading level attributes box (← text.inlines definitions)
  | code language text => return code language text
  | html text => return html text
  | rule => return rule
  | quote inner => do return quote (← readAll definitions inner)
  | list start items => do return list start (← readAll definitions items)
  | item inner => do return item (← readAll definitions inner)
  | task done => return task done
  | table columns head rows => do
    let cells (row : List Prose) : StateM Nat (List (List Inline)) :=
      row.mapM fun cell => cell.inlines definitions
    return table columns (← cells head) (← rows.mapM cells)

/-- Some blocks with their prose read. -/
def readAll (definitions : List Definition) :
    List (Block Prose) → StateM Nat (List (Block (List Inline)))
  | [] => return []
  | block :: rest => do
    let block ← readProse definitions block
    return block :: (← readAll definitions rest)

end

end Block

/-- The blocks of a document with their prose read. -/
def Document.inlineBlocks (document : Document) : List (Block (List Inline)) :=
  (Block.readAll document.definitions document.blocks document.allowance).1

end PostMarkup.Markdown
