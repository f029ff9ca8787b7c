import PostMarkup.Typography.RuleSet

namespace PostMarkup.Typography

/-- The rule matches at no place of the text, given the character before it. -/
def Rule.IsSilent (rule : Rule) : Option Char → Text → Prop
  | _, [] => True
  | before, c :: s => (rule before (c :: s)).isNone = true ∧ rule.IsSilent (some c) s

instance Rule.decidableIsSilent (rule : Rule) :
    (before : Option Char) → (s : Text) → Decidable (rule.IsSilent before s)
  | _, [] => inferInstanceAs (Decidable True)
  | before, c :: s =>
    have := rule.decidableIsSilent (some c) s
    inferInstanceAs (Decidable ((rule before (c :: s)).isNone = true ∧ rule.IsSilent (some c) s))

theorem Rule.IsSilent.of_append {rule : Rule} {before : Option Char} {front : Text} {c : Char}
    {s : Text} (h : rule.IsSilent before (front ++ c :: s)) :
    rule (front.getLast?.or before) (c :: s) = none := by
  induction front generalizing before with
  | nil => exact Option.isNone_iff_eq_none.1 h.1
  | cons d front ih =>
    have hlast : (d :: front).getLast?.or before = front.getLast?.or (some d) := by
      rw [List.getLast?_cons]
      cases front.getLast? <;> rfl
    rw [hlast]
    exact ih h.2

theorem Rule.scan_of_isSilent {rule : Rule} {before : Option Char} {s : Text}
    (h : rule.IsSilent before s) : rule.scan before 0 s = s := by
  induction s generalizing before with
  | nil => rfl
  | cons c s ih =>
    obtain ⟨hnone, hlater⟩ := h
    rw [Rule.scan, Option.isNone_iff_eq_none.1 hnone, ih hlater]

theorem RuleSet.apply_of_isSilent {rules : RuleSet} {s : Text}
    (h : ∀ rule ∈ rules, rule.IsSilent none s) : rules.apply s = s := by
  induction rules with
  | nil => rfl
  | cons rule rules ih =>
    obtain ⟨hfirst, hlater⟩ := List.forall_mem_cons.1 h
    have hkept : rule.apply s = s := Rule.scan_of_isSilent hfirst
    rw [RuleSet.apply, List.foldl_cons, hkept]
    exact ih hlater

end PostMarkup.Typography
