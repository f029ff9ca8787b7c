import PostMarkup.Html.Tag

namespace PostMarkup.Html

/-- The text after the name of an end tag for the element, if one stands here. -/
def afterEndTagName? (name : Text) : Text → Option Text
  | '<' :: '/' :: s =>
    match Text.afterAnyCase? name s with
    | some rest => if rest.head?.any endsName then some rest else none
    | none => none
  | _ => none

/-- The content of an element, and the text after the name of its end tag. There is no such text
    where the input ends first. -/
structure Content where
  tokens : List Token
  tail? : Option Text

/-- More tokens before some content. -/
def Content.prepend (tokens : List Token) (content : Content) : Content :=
  { content with tokens := tokens ++ content.tokens }

/-- A character of content that is not ordinary text. -/
def contentTokens (c : Char) : List Token :=
  if c = '\x00' then [.parseError, .text [visible c]] else [.text [c]]

/-- A decoded reference, with a note of any fault before it. -/
def referenceTokens (found : Reference.Found) : List Token :=
  if found.inOrder then [.text found.text] else [.parseError, .text found.text]

/-- Content in which every character stands for itself. -/
def rawText (name : Text) : Text → Content
  | [] => ⟨[], none⟩
  | c :: s =>
    match afterEndTagName? name (c :: s) with
    | some tail => ⟨[], some tail⟩
    | none => (rawText name s).prepend (contentTokens c)

/-- Content in which references are decoded. -/
def escapableText (name : Text) (s : Text) : Content :=
  match s with
  | [] => ⟨[], none⟩
  | '&' :: s =>
    let found := Reference.read .runningText s
    (escapableText name found.rest).prepend (referenceTokens found)
  | c :: s =>
    match afterEndTagName? name (c :: s) with
    | some tail => ⟨[], some tail⟩
    | none => (escapableText name s).prepend (contentTokens c)
termination_by s.length
decreasing_by
  · have hle := Reference.length_read_le .runningText s
    exact Nat.lt_succ_of_le hle
  · simp

/-- How far a script is hidden from its end tag. A comment hides nothing until a script element is
    opened inside it. The number counts the hyphens just before a place, up to two. -/
inductive Hiding
  | bare
  | comment (hyphens : Nat)
  | nested (hyphens : Nat)
deriving DecidableEq

namespace Hiding

/-- The word `script` and the end of a name. -/
def namesScript (s : Text) : Bool :=
  match Text.afterAnyCase? "script".toList s with
  | some rest => rest.head?.any endsName
  | none => false

/-- What hides the text after a character, given that text. Where a construct begins with `<`, the
    state changes at once, since the rest of the construct leaves the new state as it is. -/
def next (cover : Hiding) (c : Char) (s : Text) : Hiding :=
  match cover, c with
  | bare, '<' => if (Text.after? "!--".toList s).isSome then comment 0 else bare
  | bare, _ => bare
  | comment hyphens, '-' => comment (min 2 (hyphens + 1))
  | nested hyphens, '-' => nested (min 2 (hyphens + 1))
  | comment 2, '>' => bare
  | nested 2, '>' => bare
  | comment _, '<' => if namesScript s then nested 0 else comment 0
  | nested _, '<' =>
    if (Text.after? ['/'] s).any namesScript then comment 0 else nested 0
  | comment _, _ => comment 0
  | nested _, _ => nested 0

end Hiding

/-- The content of a script. -/
def scriptText (name : Text) : Hiding → Text → Content
  | _, [] => ⟨[], none⟩
  | cover, c :: s =>
    let tail? :=
      match cover with
      | .nested _ => none
      | _ => afterEndTagName? name (c :: s)
    match tail? with
    | some tail => ⟨[], some tail⟩
    | none => (scriptText name (cover.next c s) s).prepend (contentTokens c)

/-- The content of an element with the given content model, from after its start tag. -/
def readContent (model : ContentModel) (name : Text) (s : Text) : Content :=
  match model with
  | .script => scriptText name .bare s
  | .rawText => rawText name s
  | .escapableText => escapableText name s

theorem length_le_of_afterEndTagName? {name s tail : Text}
    (htail : afterEndTagName? name s = some tail) : tail.length ≤ s.length := by
  unfold afterEndTagName? at htail
  split at htail
  · split at htail
    · next hafter =>
      have hle := Text.length_le_of_afterAnyCase? hafter
      grind
    · contradiction
  · contradiction

theorem length_le_of_rawText {name s tail : Text} (htail : (rawText name s).tail? = some tail) :
    tail.length ≤ s.length := by
  induction s with
  | nil => contradiction
  | cons c s ih =>
    simp only [rawText] at htail
    split at htail
    · next hend =>
      obtain rfl := Option.some.inj htail
      exact length_le_of_afterEndTagName? hend
    · exact Nat.le_succ_of_le (ih htail)

theorem length_le_of_escapableText {name s tail : Text}
    (htail : (escapableText name s).tail? = some tail) : tail.length ≤ s.length := by
  fun_induction escapableText name s
  · contradiction
  · next s found ih =>
    have hle := ih htail
    have hread := Reference.length_read_le .runningText s
    exact Nat.le_trans hle (Nat.le_succ_of_le hread)
  · next hend =>
    obtain rfl := Option.some.inj htail
    exact length_le_of_afterEndTagName? hend
  · next ih => exact Nat.le_succ_of_le (ih htail)

theorem length_le_of_scriptText {name s tail : Text} {cover : Hiding}
    (htail : (scriptText name cover s).tail? = some tail) : tail.length ≤ s.length := by
  induction s generalizing cover with
  | nil => contradiction
  | cons c s ih =>
    simp only [scriptText] at htail
    split at htail
    · next hend =>
      obtain rfl := Option.some.inj htail
      split at hend
      · contradiction
      · exact length_le_of_afterEndTagName? hend
    · exact Nat.le_succ_of_le (ih htail)

theorem length_le_of_readContent {model : ContentModel} {name s tail : Text}
    (htail : (readContent model name s).tail? = some tail) : tail.length ≤ s.length := by
  cases model with
  | script => exact length_le_of_scriptText htail
  | rawText => exact length_le_of_rawText htail
  | escapableText => exact length_le_of_escapableText htail

end PostMarkup.Html
