import Mathlib.Data.List.Find
import PostMarkup.Proofs.Typography.KeptReferences
import PostMarkup.Proofs.Typography.Quotes

namespace PostMarkup.Typography

/-- The references that the rules write, with their spellings. The marks that signs and blanks were
    typed with are not told apart, so nothing is spelled for them. -/
def spellings : List (Text × Text) :=
  [("&plusmn;".toList, []), ("&nbsp;".toList, []), ("&mdash;".toList, []), ("&hellip;".toList, []),
   ("&minus;".toList, []), ("&frac12;".toList, "1/2".toList), ("&frac14;".toList, "1/4".toList),
   ("&frac34;".toList, "3/4".toList)]

/-- A reference that the rules write gives way to its spelling. -/
def spellingOut : Rule := fun _ s =>
  (spellings.find? fun entry => entry.1.isPrefixOf s).map fun entry =>
    ⟨entry.2, entry.1.length - 1⟩

/-- Blanks, the marks of signs, quotes and guillemets. -/
def isTypographic (c : Char) : Bool := isBlank c || c ∈ "+-.—\"«»".toList

/-- The characters of a text that typography has no part in, with its references spelled out. -/
def survivors (s : Text) : Text := (spellingOut.apply s).filter fun c => !isTypographic c

theorem isReference_of_mem_spellings {entry : Text × Text} (hentry : entry ∈ spellings) :
    IsReference entry.1 := by
  have hall : ∀ entry ∈ spellings, IsReference entry.1 := by decide
  exact hall entry hentry

theorem exists_of_spellingOut {before : Option Char} {s : Text} {found : Match}
    (hfound : spellingOut before s = some found) :
    ∃ entry ∈ spellings, entry.1 <+: s ∧ found = ⟨entry.2, entry.1.length - 1⟩ := by
  obtain ⟨entry, hentry, rfl⟩ := Option.map_eq_some_iff.1 hfound
  have hprefix : entry.1.isPrefixOf s = true :=
    List.find?_some (p := fun entry : Text × Text => entry.1.isPrefixOf s) hentry
  exact ⟨entry, List.mem_of_find?_eq_some hentry, List.isPrefixOf_iff_prefix.1 hprefix, rfl⟩

/-- No reference that the rules write begins another one. -/
theorem spellingOut_append {entry : Text × Text} (hentry : entry ∈ spellings)
    (before : Option Char) (s : Text) :
    spellingOut before (entry.1 ++ s) = some ⟨entry.2, entry.1.length - 1⟩ := by
  simp only [spellings, List.mem_cons, List.not_mem_nil, or_false] at hentry
  obtain rfl | rfl | rfl | rfl | rfl | rfl | rfl | rfl := hentry <;> rfl

theorem spellingOut_cons_of_ne {c : Char} (hc : c ≠ '&') (before : Option Char) (s : Text) :
    spellingOut before (c :: s) = none := by
  refine Option.eq_none_iff_forall_ne_some.2 fun found hfound => ?_
  obtain ⟨entry, hentry, hprefix, -⟩ := exists_of_spellingOut hfound
  obtain ⟨body, hbody, -⟩ := (isReference_of_mem_spellings hentry).exists_cons
  rw [hbody] at hprefix
  exact hc (List.cons_prefix_cons.1 hprefix).1.symm

theorem scan_spellingOut (before : Option Char) (covered : Nat) (s : Text) :
    spellingOut.scan before covered s = spellingOut.apply (s.drop covered) :=
  Rule.scan_eq_apply_drop (fun _ _ => rfl) before covered s

theorem spellingOut_apply_cons_of_ne {c : Char} (hc : c ≠ '&') (s : Text) :
    spellingOut.apply (c :: s) = c :: spellingOut.apply s := by
  rw [Rule.apply, Rule.scan, spellingOut_cons_of_ne hc, scan_spellingOut]
  rfl

theorem spellingOut_apply_append {v : Text} (hv : Unreached v) (u : Text) :
    spellingOut.apply (u ++ v) = spellingOut.apply u ++ spellingOut.apply v := by
  suffices hscan : ∀ before covered, covered ≤ u.length →
      spellingOut.scan before covered (u ++ v) =
        spellingOut.scan before covered u ++ spellingOut.apply v from
    hscan none 0 (Nat.zero_le _)
  induction u with
  | nil =>
    intro before covered hcovered
    obtain rfl : covered = 0 := Nat.le_zero.1 hcovered
    exact scan_spellingOut before 0 v
  | cons c u ih =>
    intro before covered hcovered
    cases covered with
    | succ covered => exact ih (some c) covered (Nat.le_of_succ_le_succ hcovered)
    | zero =>
      have hahead : spellingOut before (c :: u ++ v) = spellingOut before (c :: u) := by
        refine congrArg (Option.map _) (List.find?_congr fun entry hentry => ?_)
        rw [Bool.eq_iff_iff, List.isPrefixOf_iff_prefix, List.isPrefixOf_iff_prefix]
        exact ⟨hv entry.1 (c :: u) (isReference_of_mem_spellings hentry) (by simp),
          fun h => h.trans (List.prefix_append _ _)⟩
      rw [List.cons_append] at hahead
      rw [List.cons_append, Rule.scan, Rule.scan, hahead]
      cases hfound : spellingOut before (c :: u) with
      | none =>
        rw [ih (some c) 0 (Nat.zero_le _)]
        rfl
      | some found =>
        obtain ⟨entry, -, hprefix, rfl⟩ := exists_of_spellingOut hfound
        have hlength := hprefix.length_le
        rw [List.length_cons] at hlength
        dsimp only
        rw [ih (some c) _ (by omega), List.append_assoc]

theorem spellingOut_apply_entry {entry : Text × Text} (hentry : entry ∈ spellings) (s : Text) :
    spellingOut.apply (entry.1 ++ s) = entry.2 ++ spellingOut.apply s := by
  obtain ⟨body, hbody, -⟩ := (isReference_of_mem_spellings hentry).exists_cons
  have hfound := spellingOut_append hentry none s
  rw [hbody, List.cons_append] at hfound ⊢
  rw [Rule.apply, Rule.scan, hfound]
  dsimp only
  rw [scan_spellingOut, List.length_cons, Nat.add_sub_cancel, List.drop_left]

theorem survivors_append {v : Text} (hv : Unreached v) (u : Text) :
    survivors (u ++ v) = survivors u ++ survivors v := by
  rw [survivors, spellingOut_apply_append hv, List.filter_append, survivors, survivors]

theorem survivors_append_of_not_mem {u : Text} (hu : '&' ∉ u) (v : Text) :
    survivors (u ++ v) = (u.filter fun c => !isTypographic c) ++ survivors v := by
  induction u with
  | nil => rfl
  | cons c u ih =>
    simp only [List.mem_cons, not_or] at hu
    rw [List.cons_append, survivors, spellingOut_apply_cons_of_ne (Ne.symm hu.1), List.filter_cons,
      List.filter_cons, ← survivors, ih hu.2]
    split <;> rfl

theorem survivors_entry_append {entry : Text × Text} (hentry : entry ∈ spellings) (s : Text) :
    survivors (entry.1 ++ s) = (entry.2.filter fun c => !isTypographic c) ++ survivors s := by
  rw [survivors, spellingOut_apply_entry hentry, List.filter_append, survivors]

/-- The signs of the dialect are spelled out as nothing. -/
theorem survivors_flatMap_reference {names : List Text} (hnames : names ⊆ dialectNames) (s : Text) :
    survivors (names.flatMap reference ++ s) = survivors s := by
  have hspelled : ∀ name ∈ dialectNames, (reference name, []) ∈ spellings := by decide
  induction names with
  | nil => rfl
  | cons name names ih =>
    obtain ⟨hname, hnames⟩ := List.cons_subset.1 hnames
    rw [List.flatMap_cons, List.append_assoc, survivors_entry_append (hspelled name hname), ih hnames]
    rfl

namespace Stretch

variable {covered written : Text}

theorem unreached (h : Stretch covered written) (rest : Text) : Unreached (written ++ rest) := by
  obtain hwritten | ⟨names, tail, hnonempty, -, -, rfl⟩ := h.writes
  · exact hwritten.unreached rest
  · obtain ⟨s, hs⟩ := List.head?_eq_some_iff.1 (head?_flatMap_reference hnonempty)
    rw [hs, List.append_assoc, List.cons_append]
    exact unreached_of_break (by decide) _

/-- What is written for a stretch is spelled out as what survives of the stretch. -/
theorem survivors_written (h : Stretch covered written) (rest : Text) :
    survivors (written ++ rest) = (covered.filter fun c => !isTypographic c) ++ survivors rest := by
  have hdropped {s : Text} (hs : ∀ c ∈ s, isTypographic c) :
      (s.filter fun c => !isTypographic c) = [] := by
    simpa using hs
  have hkept {s t : Text} (hs : ∀ c ∈ s, isTypographic c) (ht : ∀ c ∈ t, isTypographic c)
      (hplain : '&' ∉ t) :
      survivors (t ++ rest) = (s.filter fun c => !isTypographic c) ++ survivors rest := by
    rw [survivors_append_of_not_mem hplain, hdropped hs, hdropped ht]
  cases h with
  | sign h =>
    have htyped : ∀ c ∈ typedSigns, isTypographic c := Text.forall_of_all (by decide)
    have hblank {c : Char} (hc : isBlank c) : isTypographic c := by simp [isTypographic, hc]
    obtain ⟨names, blanks, -, hnames, -, hblanks, rfl⟩ := h.writes
    rw [List.append_assoc, survivors_flatMap_reference hnames]
    exact hkept (fun c hc => (h.covers c hc).elim hblank (htyped c))
      (fun c hc => hblank (hblanks c hc)) fun hmem => (isBreak_of_isBlank (hblanks '&' hmem)).2 rfl
  | spaced =>
    exact hkept (Text.forall_of_all (by decide)) (Text.forall_of_all (by decide)) (by decide)
  | minus => exact survivors_entry_append (by decide : (minusSign, []) ∈ spellings) rest
  | @symbol entry hentry =>
    have hspelled : ∀ entry ∈ symbols, (reference entry.1, entry.1) ∈ spellings := by decide
    exact survivors_entry_append (hspelled entry hentry) rest
  | @opening c hc =>
    have hquotes : ∀ c ∈ "\"»".toList, isTypographic c := Text.forall_of_all (by decide)
    exact hkept (by simpa using hquotes c hc) (Text.forall_of_all (by decide)) (by decide)
  | @closing c hc =>
    have hquotes : ∀ c ∈ "\"«".toList, isTypographic c := Text.forall_of_all (by decide)
    exact hkept (by simpa using hquotes c hc) (Text.forall_of_all (by decide)) (by decide)

theorem survivors_around (h : Stretch covered written) (front rest : Text) :
    survivors (front ++ (covered ++ rest)) = survivors (front ++ (written ++ rest)) := by
  rw [survivors_append (h.keepsApart.unreached rest), survivors_append (h.unreached rest),
    survivors_append_of_not_mem h.keepsApart.plain.1, h.survivors_written]

end Stretch

theorem RuleSet.survivors_apply {rules : RuleSet}
    (hrules : rules ⊆ RuleSet.shared ++ RuleSet.fractions ++ [openingQuote, closingQuote]) (s : Text) :
    survivors (rules.apply s) = survivors s :=
  (RuleSet.related_apply (fun s t => survivors s = survivors t) (fun _ => rfl)
    (fun _ _ _ => Eq.trans) (fun _ _ => Stretch.survivors_around) hrules s).symm

/-- Every character that typography has no part in survives it, once and in order. -/
theorem survivors_typographed (s : Text) :
    survivors (RuleSet.dialect.apply s) = survivors s ∧
      survivors (RuleSet.html.apply s) = survivors s ∧
      survivors (RuleSet.inline.apply s) = survivors s :=
  ⟨RuleSet.survivors_apply (RuleSet.subset_of_mem_sets (by simp)) s,
    RuleSet.survivors_apply (RuleSet.subset_of_mem_sets (by simp)) s,
    RuleSet.survivors_apply (RuleSet.subset_of_mem_sets (by simp)) s⟩

example : survivors (RuleSet.html.apply "1/2 cup +- 3-5 g...".toList) = "1/2cup35g".toList := by
  decide +kernel

end PostMarkup.Typography
