import PostMarkup.Proofs.Text.Cutting
import PostMarkup.Proofs.Typography.Signs
import PostMarkup.Proofs.Typography.Silence

namespace PostMarkup.Typography

/-- No match takes an ampersand away. -/
def Rule.KeepsAmpersands (rule : Rule) : Prop :=
  ∀ before s found, rule before s = some found →
    (s.take (found.more + 1)).count '&' ≤ found.written.count '&'

/-- Every match writes more ampersands than it covers. -/
def Rule.AddsAmpersands (rule : Rule) : Prop :=
  ∀ before s found, rule before s = some found →
    (s.take (found.more + 1)).count '&' < found.written.count '&'

theorem Rule.AddsAmpersands.keeps {rule : Rule} (h : rule.AddsAmpersands) : rule.KeepsAmpersands :=
  fun before s found hfound => Nat.le_of_lt (h before s found hfound)

theorem count_take_add_count_drop (n : Nat) (s : Text) (c : Char) :
    (s.take n).count c + (s.drop n).count c = s.count c := by
  rw [← List.count_append, List.take_append_drop]

theorem Rule.KeepsAmpersands.count_le_scan {rule : Rule} (h : rule.KeepsAmpersands)
    (before : Option Char) (covered : Nat) (s : Text) :
    (s.drop covered).count '&' ≤ (rule.scan before covered s).count '&' := by
  induction s generalizing before covered with
  | nil => simp
  | cons c s ih =>
    cases covered with
    | succ covered => exact ih (some c) covered
    | zero =>
      rw [Rule.scan]
      split
      · next found hfound =>
        have hwritten := h before (c :: s) found hfound
        have hlater := ih (some c) found.more
        have hsplit := count_take_add_count_drop (found.more + 1) (c :: s) '&'
        rw [List.drop_succ_cons] at hsplit
        rw [List.drop_zero, List.count_append]
        omega
      · have hlater := ih (some c) 0
        rw [List.drop_zero] at hlater ⊢
        rw [List.count_cons, List.count_cons]
        omega

theorem Rule.AddsAmpersands.count_lt_scan {rule : Rule} (h : rule.AddsAmpersands)
    {before : Option Char} {s : Text} (hmatch : ¬ rule.IsSilent before s) :
    s.count '&' < (rule.scan before 0 s).count '&' := by
  induction s generalizing before with
  | nil => exact absurd trivial hmatch
  | cons c s ih =>
    rw [Rule.scan]
    split
    · next found hfound =>
      have hwritten := h before (c :: s) found hfound
      have hlater := h.keeps.count_le_scan (some c) found.more s
      have hsplit := count_take_add_count_drop (found.more + 1) (c :: s) '&'
      rw [List.drop_succ_cons] at hsplit
      rw [List.count_append]
      omega
    · next hnone =>
      have hlater := ih fun hsilent => hmatch ⟨Option.isNone_iff_eq_none.2 hnone, hsilent⟩
      rw [List.count_cons, List.count_cons]
      omega

theorem RuleSet.count_le_apply {rules : RuleSet} (hrules : ∀ rule ∈ rules, rule.AddsAmpersands)
    (s : Text) : s.count '&' ≤ (rules.apply s).count '&' := by
  induction rules generalizing s with
  | nil => exact Nat.le_refl _
  | cons rule rules ih =>
    obtain ⟨hrule, hrules⟩ := List.forall_mem_cons.1 hrules
    exact Nat.le_trans (hrule.keeps.count_le_scan none 0 s) (ih hrules (rule.apply s))

/-- The rules before the first that matches leave the text to it as it is. -/
theorem RuleSet.count_lt_apply {rules : RuleSet} (hrules : ∀ rule ∈ rules, rule.AddsAmpersands)
    {s : Text} (hmatch : ¬ ∀ rule ∈ rules, rule.IsSilent none s) :
    s.count '&' < (rules.apply s).count '&' := by
  induction rules with
  | nil => simp at hmatch
  | cons rule rules ih =>
    obtain ⟨hrule, hrules⟩ := List.forall_mem_cons.1 hrules
    rw [RuleSet.apply, List.foldl_cons]
    by_cases hsilent : rule.IsSilent none s
    · have hkept : rule.apply s = s := Rule.scan_of_isSilent hsilent
      rw [hkept]
      exact ih hrules fun hall => hmatch (List.forall_mem_cons.2 ⟨hsilent, hall⟩)
    · exact Nat.lt_of_lt_of_le (hrule.count_lt_scan hsilent) (RuleSet.count_le_apply hrules _)

theorem count_reference_pos (name : Text) : 0 < (reference name).count '&' :=
  List.count_pos_iff.2 (by simp [reference])

theorem addsAmpersands_of_mem_dialect {rule : Rule} (hrule : rule ∈ RuleSet.dialect) :
    rule.AddsAmpersands := by
  intro before s found hfound
  have hsign := isSign_of_mem_dialect hrule hfound
  have hcovered : (s.take (found.more + 1)).count '&' = 0 := by
    refine List.count_eq_zero.2 fun hmem => ?_
    obtain hblank | htyped := hsign.covers _ hmem
    · exact absurd hblank (by decide)
    · exact absurd htyped (by decide)
  obtain ⟨_ | ⟨name, names⟩, blanks, hnonempty, -, -, -, hwritten⟩ := hsign.writes
  · contradiction
  · have hpos := count_reference_pos name
    rw [hcovered, hwritten, List.flatMap_cons, List.count_append, List.count_append]
    omega

theorem addsAmpersands_digitMinus : Rule.AddsAmpersands digitMinus := by
  intro before s found hfound
  unfold digitMinus at hfound
  split at hfound
  · next a b rest =>
    split at hfound
    · obtain rfl := Option.some.inj hfound
      have hhyphen : (['-'] : Text).count '&' = 0 := by decide
      have hsign : 0 < minusSign.count '&' := count_reference_pos "minus".toList
      have hcovered : (a :: '-' :: b :: rest).take (2 + 1) = [a] ++ ['-'] ++ [b] := rfl
      have hwritten : a :: minusSign ++ [b] = [a] ++ minusSign ++ [b] := rfl
      simp only [hcovered, hwritten, List.count_append, hhyphen]
      omega
    · contradiction
  · contradiction

theorem addsAmpersands_symbol {spelling : Text} (hspelling : '&' ∉ spelling)
    (hnonempty : spelling ≠ []) : Rule.AddsAmpersands (symbol spelling) := by
  intro before s found hfound
  unfold symbol at hfound
  split at hfound
  · next rest hafter =>
    split at hfound
    · contradiction
    · obtain rfl := Option.some.inj hfound
      obtain rfl := Text.after?_eq_some_iff.1 hafter
      have hlength : spelling.length - 1 + 1 = spelling.length :=
        Nat.sub_add_cancel (List.length_pos_iff.2 hnonempty)
      rw [hlength, List.take_left, List.count_eq_zero.2 hspelling]
      exact count_reference_pos spelling
  · contradiction

/-- A hyphen that hangs on a character gets a space before it. -/
theorem exists_of_hyphenSpacing {before : Option Char} {s : Text} {found : Match}
    (hfound : hyphenSpacing before s = some found) :
    ∃ c blank blanks, isBlank blank ∧ found.written = c :: ' ' :: '-' :: blank :: blanks ∧
      s.take (found.more + 1) = c :: '-' :: blank :: blanks := by
  unfold hyphenSpacing at hfound
  split at hfound
  · next c s =>
    split at hfound
    · next blank blanks hword hblanks =>
      obtain rfl := Option.some.inj hfound
      have hblank : isBlank blank :=
        Text.of_mem_takeWhile (hblanks ▸ List.mem_cons_self : blank ∈ s.takeWhile isBlank)
      have hrun := List.prefix_iff_eq_take.1 (List.takeWhile_prefix isBlank (l := s))
      rw [hblanks] at hrun
      have hlength : 2 + blanks.length + 1 = (blank :: blanks).length + 2 := by
        rw [List.length_cons]
        omega
      refine ⟨c, blank, blanks, hblank, rfl, ?_⟩
      simp only [hlength, List.take_succ_cons, ← hrun]
    · contradiction
  · contradiction

theorem keepsAmpersands_hyphenSpacing : Rule.KeepsAmpersands hyphenSpacing := by
  intro before s found hfound
  obtain ⟨c, blank, blanks, -, hwritten, hcovered⟩ := exists_of_hyphenSpacing hfound
  simp only [hwritten, hcovered, List.count_cons]
  omega

theorem dash?_hyphen {blank : Char} (hblank : isBlank blank) (s : Text) :
    dash? ('-' :: blank :: s) = some (1, blank) := by
  unfold dash?
  split
  · next heq =>
    obtain rfl : blank = '-' := (List.cons.inj (List.cons.inj heq).2).1
    exact absurd hblank (by decide)
  · next heq =>
    obtain ⟨-, heq⟩ := List.cons.inj heq
    obtain ⟨rfl, -⟩ := List.cons.inj heq
    rw [if_pos hblank]
  · next heq => exact absurd (List.cons.inj heq).1 (by decide)
  · next hhyphen _ => exact absurd rfl (hhyphen blank s)

/-- A hyphen between blanks is a dash. -/
theorem spacedDash_not_isSilent {s : Text} {blank : Char} (hblank : isBlank blank)
    (hheld : [' ', '-', blank] <:+: s) (before : Option Char) : ¬ spacedDash.IsSilent before s := by
  obtain ⟨lead, rest, rfl⟩ := hheld
  induction lead generalizing before with
  | nil =>
    rintro ⟨hnone, -⟩
    have hspace : isBlank ' ' = true := by decide
    have hhyphen : isBlank '-' = false := by decide
    simp [spacedDash, hspace, hhyphen, dash?_hyphen hblank] at hnone
  | cons c lead ih => exact fun hsilent => ih (some c) hsilent.2

/-- A hyphen that is set apart stands between blanks. -/
theorem exists_infix_hyphenSpacing {s : Text} {before : Option Char}
    (hmatch : ¬ Rule.IsSilent hyphenSpacing before s) :
    ∃ blank, isBlank blank ∧ [' ', '-', blank] <:+: Rule.scan hyphenSpacing before 0 s := by
  induction s generalizing before with
  | nil => exact absurd trivial hmatch
  | cons c s ih =>
    rw [Rule.scan]
    split
    · next found hfound =>
      obtain ⟨d, blank, blanks, hblank, hwritten, -⟩ := exists_of_hyphenSpacing hfound
      rw [hwritten]
      exact ⟨blank, hblank, [d], blanks ++ hyphenSpacing.scan (some c) found.more s, by simp⟩
    · next hnone =>
      obtain ⟨blank, hblank, hheld⟩ :=
        ih fun hsilent => hmatch ⟨Option.isNone_iff_eq_none.2 hnone, hsilent⟩
      exact ⟨blank, hblank, hheld.trans (List.suffix_cons c _).isInfix⟩

theorem addsAmpersands_of_mem_html_tail {rule : Rule} (hrule : rule ∈ RuleSet.html.tail) :
    rule.AddsAmpersands := by
  have hsymbols : ∀ entry ∈ symbols, '&' ∉ entry.1 ∧ entry.1 ≠ [] := by decide
  simp only [RuleSet.html, List.cons_append, List.tail_cons, List.nil_append, List.mem_cons,
    List.mem_map] at hrule
  obtain rfl | rfl | rfl | rfl | rfl | ⟨entry, hentry, rfl⟩ := hrule
  · exact addsAmpersands_of_mem_dialect (by simp [RuleSet.dialect])
  · exact addsAmpersands_of_mem_dialect (by simp [RuleSet.dialect])
  · exact addsAmpersands_of_mem_dialect (by simp [RuleSet.dialect])
  · exact addsAmpersands_of_mem_dialect (by simp [RuleSet.dialect])
  · exact addsAmpersands_digitMinus
  · exact addsAmpersands_symbol (hsymbols entry hentry).1 (hsymbols entry hentry).2

/-- Where a rule for HTML matches, the text has more ampersands after the pass. -/
theorem count_lt_html_apply {s : Text}
    (hmatch : ¬ ∀ rule ∈ RuleSet.html, rule.IsSilent none s) :
    s.count '&' < (RuleSet.html.apply s).count '&' := by
  have hhtml : RuleSet.html = hyphenSpacing :: RuleSet.html.tail := rfl
  have hadds : ∀ rule ∈ RuleSet.html.tail, rule.AddsAmpersands :=
    fun _ hrule => addsAmpersands_of_mem_html_tail hrule
  rw [hhtml, RuleSet.apply, List.foldl_cons]
  by_cases hsilent : Rule.IsSilent hyphenSpacing none s
  · have hkept : Rule.apply hyphenSpacing s = s := Rule.scan_of_isSilent hsilent
    rw [hkept]
    refine RuleSet.count_lt_apply hadds fun hall => hmatch ?_
    rw [hhtml]
    exact List.forall_mem_cons.2 ⟨hsilent, hall⟩
  · obtain ⟨blank, hblank, hheld⟩ := exists_infix_hyphenSpacing hsilent
    have hdash : spacedDash ∈ RuleSet.html.tail := by simp [RuleSet.html]
    refine Nat.lt_of_le_of_lt (keepsAmpersands_hyphenSpacing.count_le_scan none 0 s)
      (RuleSet.count_lt_apply hadds fun hall => ?_)
    exact spacedDash_not_isSilent hblank hheld none (hall spacedDash hdash)

end PostMarkup.Typography
