import PostMarkup.Text.Basic

namespace PostMarkup.Typography

/-- What a rule does at a place: it writes `written` for the character there and for the `more`
    characters after it. -/
structure Match where
  written : Text
  more : Nat

/-- A rule sees the character before a place, if there is one, and the text from the place on. -/
abbrev Rule := Option Char → Text → Option Match

namespace Rule

/-- The scan of a rule, from left to right and never over what it has written. The number counts the
    characters that the last match still covers. -/
def scan (rule : Rule) : Option Char → Nat → Text → Text
  | _, _, [] => []
  | _, covered + 1, c :: s => rule.scan (some c) covered s
  | before, 0, c :: s =>
    match rule before (c :: s) with
    | some found => found.written ++ rule.scan (some c) found.more s
    | none => c :: rule.scan (some c) 0 s

/-- Every match that does not overlap an earlier one is replaced. -/
def apply (rule : Rule) (s : Text) : Text := rule.scan none 0 s

@[simp]
theorem apply_nil (rule : Rule) : rule.apply [] = [] := rfl

end Rule

/-- Rules in the order in which they run. -/
abbrev RuleSet := List Rule

namespace RuleSet

/-- Each rule runs once, on what the rule before it wrote. -/
def apply (rules : RuleSet) (s : Text) : Text := rules.foldl (fun t rule => rule.apply t) s

/-- The texts after the first rule, the second, and so on. -/
def steps : RuleSet → Text → List Text
  | [], _ => []
  | rule :: rules, s => rule.apply s :: steps rules (rule.apply s)

/-- The last step is the whole application. -/
theorem getLast?_steps (rules : RuleSet) (s : Text) :
    (s :: rules.steps s).getLast? = some (rules.apply s) := by
  induction rules generalizing s with
  | nil => rfl
  | cons rule rules ih =>
    simpa [steps, apply, List.getLast?_cons_cons] using ih (rule.apply s)

@[simp]
theorem apply_nil (rules : RuleSet) : rules.apply [] = [] := by
  induction rules with
  | nil => rfl
  | cons rule rules ih => simpa [apply] using ih

end RuleSet

end PostMarkup.Typography
