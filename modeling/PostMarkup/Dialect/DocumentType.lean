import PostMarkup.Text.Basic

namespace PostMarkup.Dialect.DocumentType

/-- The part of a declaration that a place belongs to. -/
inductive Region
  | outer
  /-- Between quotes, before the internal subset. -/
  | outerQuoted (quote : Char)
  | subset
  | comment
  | instruction
  /-- A declaration in which quotes hide a `>`. -/
  | declaration
  | declarationQuoted (quote : Char)
  /-- Any other markup of the subset; it ends at the next `>`, quoted or not. -/
  | plainMarkup
  /-- After the internal subset. -/
  | tail

def isQuote (c : Char) : Bool := c = '"' || c = '\''

/-- The declarations of a subset that respect quotes. -/
def quotedDeclarations : List Text := ["!ENTITY".toList, "!ATTLIST".toList, "!NOTATION".toList]

/-- The region that markup of the subset opens, given the text after its `<`. -/
def Region.ofMarkup (s : Text) : Region :=
  if (quotedDeclarations.any fun name => (Text.after? name s).isSome) then declaration
  else plainMarkup

/-- The text from the `>` that closes the declaration on. -/
def closing? : Region → Text → Option Text
  | _, [] => none
  | .outer, c :: s =>
    if c = '>' then some (c :: s)
    else if c = '[' then closing? .subset s
    else if isQuote c then closing? (.outerQuoted c) s
    else closing? .outer s
  | .outerQuoted quote, c :: s => closing? (if c = quote then .outer else .outerQuoted quote) s
  | .subset, '<' :: '!' :: '-' :: '-' :: s => closing? .comment s
  | .subset, '<' :: '?' :: s => closing? .instruction s
  | .subset, c :: s =>
    if c = '<' then closing? (.ofMarkup s) s
    else if c = ']' then closing? .tail s
    else closing? .subset s
  | .comment, '-' :: '-' :: '>' :: s => closing? .subset s
  | .comment, _ :: s => closing? .comment s
  | .instruction, '?' :: '>' :: s => closing? .subset s
  | .instruction, _ :: s => closing? .instruction s
  | .declaration, c :: s =>
    if c = '>' then closing? .subset s
    else if isQuote c then closing? (.declarationQuoted c) s
    else closing? .declaration s
  | .declarationQuoted quote, c :: s =>
    closing? (if c = quote then .declaration else .declarationQuoted quote) s
  | .plainMarkup, c :: s => closing? (if c = '>' then .subset else .plainMarkup) s
  | .tail, c :: s => if c = '>' then some (c :: s) else closing? .tail s

/-- The closing is looked for in the text itself, so nothing longer is found. -/
theorem length_closing?_le {region : Region} {s rest : Text}
    (hclosing : closing? region s = some rest) : rest.length ≤ s.length := by
  fun_induction closing? region s <;> grind

end PostMarkup.Dialect.DocumentType
