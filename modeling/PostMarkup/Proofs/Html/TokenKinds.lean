import PostMarkup.Proofs.Html.TagShape
import PostMarkup.Proofs.Html.WrittenComment

namespace PostMarkup.Html

namespace Token

def isTag : Token → Bool
  | startTag .. => true
  | endTag .. => true
  | _ => false

/-- A tag or a comment. -/
def isMark : Token → Bool
  | comment _ => true
  | token => token.isTag

/-- A token that goes into a text node without ending it. -/
def isTextual : Token → Bool
  | text _ => true
  | null => true
  | parseError => true
  | _ => false

/-- A token that can be written and read back. Of an end tag only the name is written. -/
def WellFormed : Token → Prop
  | text s => '\x00' ∉ s
  | startTag name attributes _ => WellFormedTag name attributes
  | endTag name _ _ => IsTagName name
  | comment content => IsCommentContent content
  | _ => True

/-- The element without markup that begins with a token. -/
def opens? : Token → Option Text
  | startTag name _ false => if (contentModel? name).isSome then some name else none
  | _ => none

/-- The element that ends with a token. -/
def closes? : Token → Option Text
  | endTag name _ _ => some name
  | _ => none

/-- An end tag without its attributes and its slash. Other tokens stay. -/
def bare : Token → Token
  | endTag name _ _ => endTag name [] false
  | token => token

/-- The characters of a token, if it is text. -/
def chars : Token → Text
  | text s => s
  | _ => []

/-- Whether a token brings a carriage return, which only a reference can do. -/
def holdsReturn : Token → Bool
  | text s => s.contains '\r'
  | startTag _ attributes _ | endTag _ attributes _ =>
    attributes.any fun entry => entry.value.contains '\r'
  | _ => false

theorem null_not_mem_chars {token : Token} (htoken : token.WellFormed) : '\x00' ∉ token.chars := by
  cases token with
  | text s => exact htoken
  | _ => simp [chars]

theorem return_not_mem_chars {token : Token} (htoken : token.holdsReturn = false) :
    '\r' ∉ token.chars := by
  cases token with
  | text s => simpa [holdsReturn, chars] using htoken
  | _ => simp [chars]

theorem isTag_of_isTextual {token : Token} (htoken : token.isTextual = true) :
    token.isTag = false := by
  cases token <;> first | rfl | contradiction

theorem isMark_of_isTextual {token : Token} (htoken : token.isTextual = true) :
    token.isMark = false := by
  cases token <;> first | rfl | contradiction

theorem isMark_of_isTag {token : Token} (htoken : token.isTag = true) : token.isMark = true := by
  cases token <;> first | rfl | contradiction

theorem opens?_of_isTextual {token : Token} (htoken : token.isTextual = true) :
    token.opens? = none := by
  cases token <;> first | rfl | contradiction

theorem exists_of_closes? {token : Token} {name : Text} (hcloses : token.closes? = some name) :
    ∃ attributes selfClosing, token = .endTag name attributes selfClosing := by
  cases token with
  | endTag other attributes selfClosing =>
    obtain rfl := Option.some.inj hcloses
    exact ⟨attributes, selfClosing, rfl⟩
  | _ => contradiction

theorem holdsReturn_bare {token : Token} (htoken : token.holdsReturn = false) :
    token.bare.holdsReturn = false := by
  cases token with
  | endTag => rfl
  | _ => exact htoken

theorem bare_eq_self_iff (token : Token) :
    token.bare = token ↔ ∀ name attributes selfClosing,
      token = .endTag name attributes selfClosing → attributes = [] ∧ selfClosing = false := by
  cases token with
  | endTag name attributes selfClosing =>
    simp only [bare, endTag.injEq, true_and, and_imp]
    constructor
    · rintro ⟨rfl, rfl⟩ _ _ _ - rfl rfl
      exact ⟨rfl, rfl⟩
    · intro h
      obtain ⟨rfl, rfl⟩ := h name attributes selfClosing rfl rfl rfl
      exact ⟨rfl, rfl⟩
  | _ => simp [bare]

end Token

/-- Tokens that go into one text node. -/
def Textual (tokens : List Token) : Prop := ∀ token ∈ tokens, token.isTextual = true

theorem textual_nil : Textual [] := by
  simp [Textual]

theorem Textual.append {tokens more : List Token} (h : Textual tokens) (hmore : Textual more) :
    Textual (tokens ++ more) :=
  List.forall_mem_append.2 ⟨h, hmore⟩

theorem textual_referenceTokens (found : Reference.Found) : Textual (referenceTokens found) := by
  unfold referenceTokens Textual
  split <;> simp [Token.isTextual]

theorem textual_contentTokens (c : Char) : Textual (contentTokens c) := by
  unfold contentTokens Textual
  split <;> simp [Token.isTextual]

theorem flatMap_chars_referenceTokens (found : Reference.Found) :
    (referenceTokens found).flatMap Token.chars = found.text := by
  unfold referenceTokens
  split <;> simp [Token.chars]

theorem flatMap_chars_contentTokens (c : Char) :
    (contentTokens c).flatMap Token.chars = [visible c] := by
  unfold contentTokens
  split
  · rfl
  · next hc => simp [Token.chars, visible, hc]

theorem textual_flatMap_contentTokens (s : Text) : Textual (s.flatMap contentTokens) := by
  intro token htoken
  obtain ⟨c, -, htoken⟩ := List.mem_flatMap.1 htoken
  exact textual_contentTokens c token htoken

theorem chars_flatMap_contentTokens (s : Text) :
    (s.flatMap contentTokens).flatMap Token.chars = s.map visible := by
  induction s with
  | nil => rfl
  | cons c s ih =>
    rw [List.flatMap_cons, List.flatMap_append, flatMap_chars_contentTokens, ih]
    rfl

theorem wellFormed_contentTokens (c : Char) : ∀ token ∈ contentTokens c, token.WellFormed := by
  unfold contentTokens
  split
  · next hc => simp [Token.WellFormed, visible, hc, Reference.replacementCharacter]
  · next hc => simpa [Token.WellFormed] using Ne.symm hc

theorem wellFormed_referenceTokens (place : Reference.Context) (s : Text) :
    ∀ token ∈ referenceTokens (Reference.read place s), token.WellFormed := by
  have hnull := Reference.null_not_mem_read place s
  unfold referenceTokens
  split <;> simp [Token.WellFormed, hnull]

def tags (tokens : List Token) : List Token := tokens.filter Token.isTag

/-- No end tag has attributes or closes itself. -/
def EndTagsBare (tokens : List Token) : Prop :=
  ∀ name attributes selfClosing, Token.endTag name attributes selfClosing ∈ tokens →
    attributes = [] ∧ selfClosing = false

section

variable {ends : Token → Bool} (htag : ∀ token, token.isTag = true → ends token = true)
  (tokens : List Token)

include htag

/-- No mark has anything to lose exactly if no end tag has, whether comments are marks or not. -/
theorem forall_bare_eq_self_iff :
    (∀ token ∈ tokens.filter ends, token.bare = token) ↔ EndTagsBare tokens := by
  constructor
  · intro hbare name attributes selfClosing hmem
    have hkept := List.mem_filter.2 ⟨hmem, htag (.endTag name attributes selfClosing) rfl⟩
    exact (Token.bare_eq_self_iff _).1 (hbare _ hkept) name attributes selfClosing rfl
  · intro hends token htoken
    obtain ⟨hmem, -⟩ := List.mem_filter.1 htoken
    refine (Token.bare_eq_self_iff token).2 fun name attributes selfClosing heq => ?_
    exact hends name attributes selfClosing (heq ▸ hmem)

theorem map_bare_eq_self_iff :
    (tokens.filter ends).map Token.bare = tokens.filter ends ↔ EndTagsBare tokens := by
  have hmap := List.map_inj_left (l := tokens.filter ends) (f := Token.bare) (g := id)
  rw [List.map_id] at hmap
  exact hmap.trans (forall_bare_eq_self_iff htag tokens)

end

end PostMarkup.Html
