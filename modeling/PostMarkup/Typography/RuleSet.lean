import PostMarkup.Text.Word
import PostMarkup.Typography.Rule

namespace PostMarkup.Typography

/-- Plain spellings that have a character of their own, with the name of its reference. -/
def symbols : List (Text × Text) :=
  [("1/2".toList, "frac12".toList), ("1/4".toList, "frac14".toList),
   ("3/4".toList, "frac34".toList)]

/-- The reference for a plain spelling. A text that is not in the table is taken as a name. -/
def reference (spelling : Text) : Text :=
  '&' :: (symbols.lookup spelling).getD spelling ++ [';']

def plusMinusSign : Text := reference "plusmn".toList

def noBreakSpace : Text := reference "nbsp".toList

def emDash : Text := reference "mdash".toList

def horizontalEllipsis : Text := reference "hellip".toList

def minusSign : Text := reference "minus".toList

/-- A plus and a hyphen are a plus-minus sign. -/
def plusMinus : Rule
  | _, '+' :: '-' :: _ => some ⟨plusMinusSign, 1⟩
  | _, _ => none

/-- A dash at the head of a text: how many characters it takes, and the blank that has to follow.
    It is typed as one or two hyphens or as an em dash. -/
def dash? : Text → Option (Nat × Char)
  | '-' :: '-' :: c :: _ => if isBlank c then some (2, c) else none
  | '-' :: c :: _ => if isBlank c then some (1, c) else none
  | '—' :: c :: _ => if isBlank c then some (1, c) else none
  | _ => none

/-- The blanks before a dash become one no-break space, so that no line begins with the dash. The
    blank after it is kept. -/
def spacedDash : Rule := fun _ s =>
  match s.takeWhile isBlank with
  | [] => none
  | blanks =>
    (dash? (s.dropWhile isBlank)).map fun (width, blank) =>
      ⟨noBreakSpace ++ emDash ++ [blank], blanks.length + width⟩

/-- A dash that opens the text, as in a line of dialogue. -/
def leadingDash : Rule
  | none, s => (dash? s).map fun (width, blank) => ⟨emDash ++ [blank], width⟩
  | some _, _ => none

/-- Two full stops or more are one ellipsis. -/
def ellipsis : Rule
  | _, '.' :: '.' :: s => some ⟨horizontalEllipsis, 1 + (s.takeWhile (· = '.')).length⟩
  | _, _ => none

/-- A hyphen that hangs on a word and has a blank after it is set apart, so that the dash rules see
    it. -/
def hyphenSpacing : Rule
  | _, c :: '-' :: s =>
    match isWord c, s.takeWhile isBlank with
    | true, blank :: blanks =>
      some ⟨c :: ' ' :: '-' :: blank :: blanks, 2 + blanks.length⟩
    | _, _ => none
  | _, _ => none

/-- A hyphen between two digits is a minus. Both digits belong to the match. -/
def digitMinus : Rule
  | _, a :: '-' :: b :: _ =>
    if isDecimal a && isDecimal b then some ⟨a :: minusSign ++ [b], 2⟩ else none
  | _, _ => none

/-- A spelled symbol between word boundaries becomes the reference for it. -/
def symbol (spelling : Text) : Rule := fun before s =>
  match Text.after? spelling s with
  | some rest =>
    if before.any isWord || rest.head?.any isWord then none
    else some ⟨reference spelling, spelling.length - 1⟩
  | none => none

/-- A quote before a visible character opens. -/
def openingQuote : Rule
  | _, c :: next :: _ =>
    if (c = '"' || c = '»') && !isBlank next then some ⟨['«', next], 1⟩ else none
  | _, _ => none

/-- A quote after a visible character closes. -/
def closingQuote : Rule
  | _, last :: c :: _ =>
    if !isBlank last && (c = '"' || c = '«') then some ⟨[last, '»'], 1⟩ else none
  | _, _ => none

/-- The rules for the text of a dialect document. -/
def RuleSet.dialect : RuleSet := [plusMinus, spacedDash, leadingDash, ellipsis]

/-- The rules for the text of stored HTML. -/
def RuleSet.html : RuleSet :=
  [hyphenSpacing, plusMinus, spacedDash, leadingDash, ellipsis, digitMinus] ++
    symbols.map fun entry => symbol entry.1

/-- The rules for titles and teasers: guillemets, and fractions left alone. -/
def RuleSet.inline : RuleSet :=
  [hyphenSpacing, plusMinus, spacedDash, leadingDash, ellipsis, digitMinus, openingQuote,
   closingQuote]

end PostMarkup.Typography
