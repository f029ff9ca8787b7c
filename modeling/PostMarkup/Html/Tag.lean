import PostMarkup.Html.Token
import PostMarkup.Reference.Reading

namespace PostMarkup.Html

/-- The blanks inside a tag. -/
def isTagBlank (c : Char) : Bool := c = ' ' || c = '\t' || c = '\n' || c = '\x0c'

/-- The characters that end the name of a tag. -/
def endsName (c : Char) : Bool := isTagBlank c || c = '/' || c = '>'

/-- Names are compared in lower case. -/
def foldName (name : Text) : Text := name.map fun c => visible c.toLower

/-- An attribute value with its references decoded. -/
def decodeValue (s : Text) : Text :=
  match s with
  | [] => []
  | '&' :: s =>
    let found := Reference.read .attributeValue s
    found.text ++ decodeValue found.rest
  | c :: s => visible c :: decodeValue s
termination_by s.length
decreasing_by
  · have hle := Reference.length_read_le .attributeValue s
    exact Nat.lt_succ_of_le hle
  · simp

/-- The value after an equals sign, not yet decoded, and the text from its end on. There is none
    where the input ends first. -/
def readValue? (s : Text) : Option (Text × Text) :=
  match s.dropWhile isTagBlank with
  | [] => none
  | c :: s =>
    if c = '"' || c = '\'' then Text.upTo? [c] s
    else
      let inValue := fun c => !isTagBlank c && c ≠ '>'
      some ((c :: s).takeWhile inValue, (c :: s).dropWhile inValue)

theorem length_le_of_readValue? {s value rest : Text} (hread : readValue? s = some (value, rest)) :
    rest.length ≤ s.length := by
  have hblank := Text.length_dropWhile_le isTagBlank s
  simp only [readValue?] at hread
  split at hread
  · contradiction
  · next c t heq =>
    rw [heq, List.length_cons] at hblank
    split at hread
    · have hlt := Text.length_lt_of_upTo? hread (by simp)
      omega
    · simp only [Option.some.injEq, Prod.mk.injEq] at hread
      obtain ⟨-, rfl⟩ := hread
      have hdrop := Text.length_dropWhile_le (fun c => !isTagBlank c && c ≠ '>') (c :: t)
      rw [List.length_cons] at hdrop
      omega

/-- The inside of a tag after its name. -/
structure TagEnd where
  attributes : List Attribute
  selfClosing : Bool
  rest : Text

/-- Reads attributes up to the `>` of the tag. A tag that the input cuts off is none. -/
def readTagEnd? (s : Text) : Option TagEnd :=
  match s with
  | [] => none
  | '>' :: rest => some ⟨[], false, rest⟩
  | '/' :: '>' :: rest => some ⟨[], true, rest⟩
  | c :: s =>
    if c = '/' || isTagBlank c then readTagEnd? s
    else
      let inKey := fun c => !endsName c && c ≠ '='
      let key := foldName (c :: s.takeWhile inKey)
      match _hkey : (s.dropWhile inKey).dropWhile isTagBlank with
      | '=' :: s₁ =>
        match _hvalue : readValue? s₁ with
        | some (value, s₂) =>
          (readTagEnd? s₂).map fun later =>
            { later with attributes := ⟨key, decodeValue value⟩ :: later.attributes }
        | none => none
      | s₁ =>
        (readTagEnd? s₁).map fun later =>
          { later with attributes := ⟨key, []⟩ :: later.attributes }
termination_by s.length
decreasing_by
  · simp
  all_goals
    have hle₁ := Text.length_dropWhile_le (fun c => !endsName c && c ≠ '=') s
    have hle₂ := Text.length_dropWhile_le isTagBlank
      (s.dropWhile fun c => !endsName c && c ≠ '=')
    rw [_hkey] at hle₂
    simp only [List.length_cons] at hle₂ ⊢
  · have hle₃ := length_le_of_readValue? _hvalue
    omega
  · omega

theorem length_lt_of_readTagEnd? {s : Text} {tag : TagEnd} (hread : readTagEnd? s = some tag) :
    tag.rest.length < s.length := by
  fun_induction readTagEnd? s generalizing tag
  · contradiction
  · obtain rfl := Option.some.inj hread
    simp
  · obtain rfl := Option.some.inj hread
    simp only [List.length_cons]
    omega
  · next ih =>
    have hlt := ih hread
    rw [List.length_cons]
    omega
  · next s _ _ _ inKey _ _ hkey _ _ hvalue ih =>
    obtain ⟨later, hlater, rfl⟩ := Option.map_eq_some_iff.1 hread
    have hlt := ih hlater
    have hle₁ := Text.length_dropWhile_le inKey s
    have hle₂ := Text.length_dropWhile_le isTagBlank (s.dropWhile inKey)
    have hle₃ := length_le_of_readValue? hvalue
    rw [hkey, List.length_cons] at hle₂
    simp only [List.length_cons]
    omega
  · contradiction
  · next s _ _ _ inKey _ _ ih =>
    obtain ⟨later, hlater, rfl⟩ := Option.map_eq_some_iff.1 hread
    have hlt := ih hlater
    have hle₁ := Text.length_dropWhile_le inKey s
    have hle₂ := Text.length_dropWhile_le isTagBlank (s.dropWhile inKey)
    simp only [List.length_cons]
    omega

/-- Of attributes with one key the first counts. -/
def distinctKeys (seen : List Text) : List Attribute → List Attribute
  | [] => []
  | entry :: rest =>
    if entry.key ∈ seen then distinctKeys seen rest
    else entry :: distinctKeys (entry.key :: seen) rest

/-- A tag with its name, its attributes as written, and the text after it. -/
structure Tag extends TagEnd where
  name : Text

/-- The tag whose name begins the text. -/
def readTag? (s : Text) : Option Tag :=
  (readTagEnd? (s.dropWhile fun c => !endsName c)).map fun tag =>
    { tag with name := foldName (s.takeWhile fun c => !endsName c) }

theorem length_lt_of_readTag? {s : Text} {tag : Tag} (hread : readTag? s = some tag) :
    tag.rest.length < s.length := by
  obtain ⟨tagEnd, hend, rfl⟩ := Option.map_eq_some_iff.1 hread
  have hlt := length_lt_of_readTagEnd? hend
  have hdrop := Text.length_dropWhile_le (fun c => !endsName c) s
  exact Nat.lt_of_lt_of_le hlt hdrop

end PostMarkup.Html
