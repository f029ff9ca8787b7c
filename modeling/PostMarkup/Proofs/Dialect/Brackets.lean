import Mathlib.Data.List.Forall2
import PostMarkup.Dialect.Conversion

namespace PostMarkup.Dialect

inductive Bracket
  | opening (name : Text)
  | closing (name : Text)
deriving DecidableEq

def Bracket.name : Bracket → Text
  | .opening name | .closing name => name

def Event.brackets : Event → List Bracket
  | .startTag name _ => [.opening name]
  | .emptyTag name _ => [.opening name, .closing name]
  | .endTag name => [.closing name]
  | _ => []

def Piece.bracket? : Piece → Option Bracket
  | .startTag name _ => some (.opening name)
  | .endTag name => some (.closing name)
  | _ => none

/-- The names that are open after a bracket, innermost first. A closing bracket has to carry the
    name of the innermost. -/
def opensAfter? (opens : List Text) : Bracket → Option (List Text)
  | .opening name => some (name :: opens)
  | .closing name =>
    match opens with
    | [] => none
    | innermost :: outer => if name = innermost then some outer else none

/-- Every closing bracket carries the name of the last opening bracket not yet closed, and none is
    left open. -/
def Balanced (brackets : List Bracket) : Prop := brackets.foldlM opensAfter? [] = some []

instance (brackets : List Bracket) : Decidable (Balanced brackets) :=
  inferInstanceAs (Decidable (_ = _))

/-- Balanced brackets, outermost pairs first. -/
inductive Nested : List Bracket → Prop
  | nil : Nested []
  | pair (name : Text) {inside after : List Bracket} (hinside : Nested inside)
      (hafter : Nested after) : Nested (.opening name :: inside ++ .closing name :: after)

theorem Nested.append {brackets more : List Bracket} (h : Nested brackets) (hmore : Nested more) :
    Nested (brackets ++ more) := by
  induction h with
  | nil => exact hmore
  | @pair name inside after hinside _ _ ih => simpa using Nested.pair name hinside ih

/-- Nested brackets leave everything open that was open before them. -/
theorem Nested.foldlM {brackets : List Bracket} (h : Nested brackets) (opens : List Text) :
    brackets.foldlM opensAfter? opens = some opens := by
  induction h generalizing opens with
  | nil => rfl
  | pair name _ _ ihinside ihafter =>
    simp [List.foldlM_append, opensAfter?, ihinside, ihafter]

/-- What closes the given names, innermost first, and nothing beyond them. -/
def ClosesAll : List Text → List Bracket → Prop
  | [], brackets => Nested brackets
  | name :: outer, brackets => ∃ inside after, brackets = inside ++ .closing name :: after ∧
      Nested inside ∧ ClosesAll outer after

/-- A nested stretch may come first. -/
theorem ClosesAll.nested_append {opens : List Text} {brackets more : List Bracket}
    (hbrackets : Nested brackets) (hmore : ClosesAll opens more) :
    ClosesAll opens (brackets ++ more) := by
  cases opens with
  | nil => exact hbrackets.append hmore
  | cons name outer =>
    obtain ⟨inside, after, rfl, hinside, hafter⟩ := hmore
    exact ⟨brackets ++ inside, after, by simp, hbrackets.append hinside, hafter⟩

theorem closesAll_of_foldlM {opens : List Text} {brackets : List Bracket}
    (h : brackets.foldlM opensAfter? opens = some []) : ClosesAll opens brackets := by
  induction brackets generalizing opens with
  | nil =>
    obtain rfl : opens = [] := by simpa using h
    exact .nil
  | cons bracket brackets ih =>
    rw [List.foldlM_cons] at h
    obtain ⟨inner, hinner, hrest⟩ := Option.bind_eq_some_iff.1 h
    cases bracket with
    | opening name =>
      obtain rfl := Option.some.inj hinner
      obtain ⟨inside, after, rfl, hinside, hafter⟩ := ih hrest
      simpa using hafter.nested_append (.pair name hinside .nil)
    | closing name =>
      cases opens with
      | nil => contradiction
      | cons innermost outer =>
        simp only [opensAfter?] at hinner
        split at hinner
        · next heq =>
          obtain rfl := Option.some.inj hinner
          exact ⟨[], brackets, by simp [heq], .nil, ih hrest⟩
        · contradiction

theorem balanced_iff_nested {brackets : List Bracket} : Balanced brackets ↔ Nested brackets :=
  ⟨closesAll_of_foldlM, fun h => h.foldlM []⟩

end PostMarkup.Dialect
