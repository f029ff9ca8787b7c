import PostMarkup.Proofs.Typography.Signs

namespace PostMarkup.Typography

/-- Every character that the rules write without having read it. -/
def signs : Text :=
  " -«»".toList ++ plusMinusSign ++ noBreakSpace ++ emDash ++ horizontalEllipsis ++ minusSign ++
    symbols.flatMap fun entry => reference entry.1

/-- A rule that writes only signs and what it has read. -/
def Rule.WritesSigns (rule : Rule) : Prop :=
  ∀ before s found, rule before s = some found → found.written ⊆ signs ++ s

theorem Rule.WritesSigns.scan_subset {rule : Rule} (hrule : rule.WritesSigns)
    (before : Option Char) (covered : Nat) (s : Text) :
    rule.scan before covered s ⊆ signs ++ s := by
  induction s generalizing before covered with
  | nil => simp [Rule.scan]
  | cons c s ih =>
    have hgrow : signs ++ s ⊆ signs ++ c :: s := by simp
    cases covered with
    | succ covered => exact List.Subset.trans (ih _ _) hgrow
    | zero =>
      unfold Rule.scan
      split
      · next found hfound =>
        exact List.append_subset.2 ⟨hrule _ _ _ hfound, List.Subset.trans (ih _ _) hgrow⟩
      · exact List.cons_subset.2 ⟨by simp, List.Subset.trans (ih _ _) hgrow⟩

theorem RuleSet.apply_subset {rules : RuleSet} (hrules : ∀ rule ∈ rules, rule.WritesSigns)
    (s : Text) : rules.apply s ⊆ signs ++ s := by
  unfold RuleSet.apply
  induction rules generalizing s with
  | nil => simp
  | cons rule rules ih =>
    have hfirst : rule.apply s ⊆ signs ++ s := (hrules rule (by simp)).scan_subset none 0 s
    have hrest := ih (fun other hother => hrules other (by simp [hother])) (rule.apply s)
    exact List.Subset.trans hrest (List.append_subset.2 ⟨by simp, hfirst⟩)

theorem writesSigns_hyphenSpacing : Rule.WritesSigns hyphenSpacing := by
  intro before s found hfound
  unfold hyphenSpacing at hfound
  split at hfound
  · next c s =>
    split at hfound
    · next blank blanks hword hblanks =>
      obtain rfl := Option.some.inj hfound
      have hread : blank :: blanks ⊆ s := hblanks ▸ (List.takeWhile_prefix _).subset
      have hsigns : " -".toList ⊆ signs := by decide
      intro d hd
      simp only [List.mem_cons] at hd
      obtain rfl | rfl | rfl | hd := hd
      · simp
      · simp [hsigns (by decide : ' ' ∈ " -".toList)]
      · simp [hsigns (by decide : '-' ∈ " -".toList)]
      · simp [hread (List.mem_cons.2 hd)]
    · contradiction
  · contradiction

theorem writesSigns_of_mem_dialect {rule : Rule} (hrule : rule ∈ RuleSet.dialect) :
    rule.WritesSigns := by
  intro before s found hfound
  obtain ⟨names, blanks, -, hnames, hblanks, -, hwritten⟩ :=
    (isSign_of_mem_dialect hrule hfound).writes
  have hsigns : ∀ name ∈ dialectNames, reference name ⊆ signs := by decide
  rw [hwritten]
  refine List.append_subset.2 ⟨List.subset_append_of_subset_left _ fun c hc => ?_,
    List.subset_append_of_subset_right _ (List.Subset.trans hblanks (List.take_subset _ _))⟩
  obtain ⟨name, hname, hc⟩ := List.mem_flatMap.1 hc
  exact hsigns name (hnames hname) hc

theorem writesSigns_digitMinus : Rule.WritesSigns digitMinus := by
  intro before s found hfound
  unfold digitMinus at hfound
  split at hfound
  · split at hfound
    · obtain rfl := Option.some.inj hfound
      have hsigns : minusSign ⊆ signs := by decide
      refine List.cons_subset.2 ⟨by simp, List.append_subset.2 ⟨?_, by simp⟩⟩
      exact List.subset_append_of_subset_left _ hsigns
    · contradiction
  · contradiction

theorem writesSigns_symbol {spelling : Text} (hspelling : reference spelling ⊆ signs) :
    Rule.WritesSigns (symbol spelling) := by
  intro before s found hfound
  unfold symbol at hfound
  split at hfound
  · split at hfound
    · contradiction
    · obtain rfl := Option.some.inj hfound
      exact List.subset_append_of_subset_left _ hspelling
  · contradiction

theorem writesSigns_openingQuote : Rule.WritesSigns openingQuote := by
  intro before s found hfound
  unfold openingQuote at hfound
  split at hfound
  · split at hfound
    · obtain rfl := Option.some.inj hfound
      have hsign : '«' ∈ signs := by decide
      exact List.cons_subset.2 ⟨by simp [hsign], List.cons_subset.2 ⟨by simp, by simp⟩⟩
    · contradiction
  · contradiction

theorem writesSigns_closingQuote : Rule.WritesSigns closingQuote := by
  intro before s found hfound
  unfold closingQuote at hfound
  split at hfound
  · split at hfound
    · obtain rfl := Option.some.inj hfound
      have hsign : '»' ∈ signs := by decide
      exact List.cons_subset.2 ⟨by simp, List.cons_subset.2 ⟨by simp [hsign], by simp⟩⟩
    · contradiction
  · contradiction

theorem writesSigns_of_mem_html {rule : Rule} (hrule : rule ∈ RuleSet.html) : rule.WritesSigns := by
  have hsymbols : ∀ entry ∈ symbols, reference entry.1 ⊆ signs := by decide
  simp only [RuleSet.html, List.mem_append, List.mem_cons, List.not_mem_nil, or_false,
    List.mem_map] at hrule
  obtain (rfl | rfl | rfl | rfl | rfl | rfl) | ⟨entry, hentry, rfl⟩ := hrule
  · exact writesSigns_hyphenSpacing
  · exact writesSigns_of_mem_dialect (by simp [RuleSet.dialect])
  · exact writesSigns_of_mem_dialect (by simp [RuleSet.dialect])
  · exact writesSigns_of_mem_dialect (by simp [RuleSet.dialect])
  · exact writesSigns_of_mem_dialect (by simp [RuleSet.dialect])
  · exact writesSigns_digitMinus
  · exact writesSigns_symbol (hsymbols entry hentry)

/-- Typographed HTML text has no characters but its own and those of the signs. -/
theorem html_apply_subset (s : Text) : RuleSet.html.apply s ⊆ signs ++ s :=
  RuleSet.apply_subset (fun _ => writesSigns_of_mem_html) s

theorem inline_apply_subset (s : Text) : RuleSet.inline.apply s ⊆ signs ++ s := by
  refine RuleSet.apply_subset (fun rule hrule => ?_) s
  simp only [RuleSet.inline, List.mem_cons, List.not_mem_nil, or_false] at hrule
  obtain rfl | rfl | rfl | rfl | rfl | rfl | rfl | rfl := hrule
  · exact writesSigns_hyphenSpacing
  · exact writesSigns_of_mem_dialect (by simp [RuleSet.dialect])
  · exact writesSigns_of_mem_dialect (by simp [RuleSet.dialect])
  · exact writesSigns_of_mem_dialect (by simp [RuleSet.dialect])
  · exact writesSigns_of_mem_dialect (by simp [RuleSet.dialect])
  · exact writesSigns_digitMinus
  · exact writesSigns_openingQuote
  · exact writesSigns_closingQuote

end PostMarkup.Typography
