import Mathlib.Data.List.Induction
import PostMarkup.Typography.RuleSet

namespace PostMarkup.Typography

theorem openingQuote_before (before : Option Char) (s : Text) :
    openingQuote before s = openingQuote none s := by
  unfold openingQuote
  split <;> rfl

theorem closingQuote_before (before : Option Char) (s : Text) :
    closingQuote before s = closingQuote none s := by
  unfold closingQuote
  split <;> rfl

/-- A rule that does not look behind itself begins anywhere as at the head of a text. -/
theorem Rule.scan_eq_apply_drop {rule : Rule} (hrule : ∀ before s, rule before s = rule none s)
    (before : Option Char) (covered : Nat) (s : Text) :
    rule.scan before covered s = rule.apply (s.drop covered) := by
  induction s generalizing before covered with
  | nil => rw [List.drop_nil, Rule.scan, Rule.apply_nil]
  | cons c s ih =>
    cases covered with
    | succ covered => exact ih (some c) covered
    | zero => rw [List.drop_zero, Rule.apply, Rule.scan, Rule.scan, hrule]

theorem Rule.scan_eq_apply {rule : Rule} (hrule : ∀ before s, rule before s = rule none s)
    (before : Option Char) (s : Text) : rule.scan before 0 s = rule.apply s :=
  Rule.scan_eq_apply_drop hrule before 0 s

theorem apply_openingQuote_singleton (c : Char) : Rule.apply openingQuote [c] = [c] := rfl

theorem apply_openingQuote_cons (c d : Char) (s : Text) :
    Rule.apply openingQuote (c :: d :: s) =
      if (c = '"' ∨ c = '»') ∧ isBlank d = false then '«' :: d :: Rule.apply openingQuote s
      else c :: Rule.apply openingQuote (d :: s) := by
  rw [Rule.apply, Rule.scan]
  by_cases hquote : (c = '"' ∨ c = '»') ∧ isBlank d = false
  · have hfound : openingQuote none (c :: d :: s) = some ⟨['«', d], 1⟩ := by
      simp [openingQuote, hquote]
    simp only [hfound, if_pos hquote, Rule.scan, Rule.scan_eq_apply openingQuote_before,
      List.cons_append, List.nil_append]
  · have hnone : openingQuote none (c :: d :: s) = none := by
      simpa [openingQuote] using hquote
    simp only [hnone, if_neg hquote, Rule.scan_eq_apply openingQuote_before]

theorem apply_closingQuote_cons (c d : Char) (s : Text) :
    Rule.apply closingQuote (c :: d :: s) =
      if isBlank c = false ∧ (d = '"' ∨ d = '«') then c :: '»' :: Rule.apply closingQuote s
      else c :: Rule.apply closingQuote (d :: s) := by
  rw [Rule.apply, Rule.scan]
  by_cases hquote : isBlank c = false ∧ (d = '"' ∨ d = '«')
  · have hfound : closingQuote none (c :: d :: s) = some ⟨[c, '»'], 1⟩ := by
      simp [closingQuote, hquote]
    simp only [hfound, if_pos hquote, Rule.scan, Rule.scan_eq_apply closingQuote_before,
      List.cons_append, List.nil_append]
  · have hnone : closingQuote none (c :: d :: s) = none := by
      simpa [closingQuote] using hquote
    simp only [hnone, if_neg hquote, Rule.scan_eq_apply closingQuote_before]

theorem apply_openingQuote_cons_of_not {c : Char} {s : Text}
    (hkept : ¬ ((c = '"' ∨ c = '»') ∧ s.head?.any (!isBlank ·))) :
    Rule.apply openingQuote (c :: s) = c :: Rule.apply openingQuote s := by
  cases s with
  | nil => rfl
  | cons d s => rw [apply_openingQuote_cons, if_neg (by simpa using hkept)]

theorem apply_closingQuote_cons_of_not {c : Char} {s : Text}
    (hkept : ¬ (isBlank c = false ∧ s.head?.any fun d => d = '"' || d = '«')) :
    Rule.apply closingQuote (c :: s) = c :: Rule.apply closingQuote s := by
  cases s with
  | nil => rfl
  | cons d s => rw [apply_closingQuote_cons, if_neg (by simpa using hkept)]

/-- A straight quote as its neighbours set it. A visible character before it makes it a closing one,
    else a visible character after it makes it an opening one. -/
def quoteBetween (before after : Option Char) : Char :=
  if before.any (!isBlank ·) then '»' else if after.any (!isBlank ·) then '«' else '"'

/-- Every straight quote is set by its neighbours, the first by the character before the text. -/
def setQuotes : Option Char → Text → Text
  | _, [] => []
  | before, c :: s => (if c = '"' then quoteBetween before s.head? else c) :: setQuotes (some c) s

/-- What the opening rule makes of a text in which no quotes touch. -/
def openQuotes : Text → Text
  | [] => []
  | c :: s => (if c = '"' then quoteBetween none s.head? else c) :: openQuotes s

/-- No two straight quotes touch. -/
def QuotesApart (s : Text) : Prop := ¬ ['"', '"'] <:+: s

instance : DecidablePred QuotesApart := fun s =>
  inferInstanceAs (Decidable (¬ ['"', '"'] <:+: s))

theorem QuotesApart.of_cons {c : Char} {s : Text} (h : QuotesApart (c :: s)) : QuotesApart s :=
  fun htouch => h (htouch.trans (List.suffix_cons c s).isInfix)

theorem QuotesApart.head? {s : Text} (h : QuotesApart ('"' :: s)) : s.head? ≠ some '"' := by
  intro hhead
  obtain ⟨rest, rfl⟩ := List.head?_eq_some_iff.1 hhead
  exact h ⟨[], rest, rfl⟩

theorem apply_openingQuote {s : Text} (hplain : '»' ∉ s) (hapart : QuotesApart s) :
    Rule.apply openingQuote s = openQuotes s := by
  induction s using List.twoStepInduction with
  | nil => rfl
  | singleton c =>
    by_cases hc : c = '"' <;> simp [apply_openingQuote_singleton, openQuotes, quoteBetween, hc]
  | cons_cons c d s ih ihTail =>
    have hc : c ≠ '»' := fun heq => hplain (by simp [heq])
    have htail : '»' ∉ d :: s := fun hmem => hplain (List.mem_cons_of_mem c hmem)
    rw [apply_openingQuote_cons]
    by_cases hquote : c = '"'
    · subst hquote
      have hd : d ≠ '"' := fun heq => hapart.head? (by simp [heq])
      by_cases hblank : isBlank d
      · simp [hblank, ihTail d htail hapart.of_cons, openQuotes, quoteBetween]
      · have hrest : '»' ∉ s := fun hmem => htail (List.mem_cons_of_mem d hmem)
        simp [hblank, ih hrest hapart.of_cons.of_cons, openQuotes, quoteBetween, hd]
    · simp [hquote, hc, ihTail d htail hapart.of_cons, openQuotes]

theorem openQuotes_cons_of_ne {c : Char} (hc : c ≠ '"') (s : Text) :
    openQuotes (c :: s) = c :: openQuotes s := by
  rw [openQuotes, if_neg hc]

theorem setQuotes_cons_of_ne {c : Char} (hc : c ≠ '"') (before : Option Char) (s : Text) :
    setQuotes before (c :: s) = c :: setQuotes (some c) s := by
  rw [setQuotes, if_neg hc]

theorem setQuotes_congr {s : Text} (hhead : s.head? ≠ some '"') (before other : Option Char) :
    setQuotes before s = setQuotes other s := by
  cases s with
  | nil => rfl
  | cons c s =>
    have hc : c ≠ '"' := by simpa using hhead
    rw [setQuotes_cons_of_ne hc, setQuotes_cons_of_ne hc]

/-- The closing rule on what the opening rule leaves. Either the character before the text is still
    to be taken in, and then it is no quote that touches another, or a match has just taken it. -/
theorem apply_closingQuote_openQuotes {s : Text} (hplain : '«' ∉ s) (hapart : QuotesApart s) :
    (∀ c, (c = '"' ∨ c = '«' → s.head? ≠ some '"') →
      Rule.apply closingQuote (c :: openQuotes s) = c :: setQuotes (some c) s) ∧
    (s.head? ≠ some '"' → Rule.apply closingQuote (openQuotes s) = setQuotes none s) := by
  induction s with
  | nil => exact ⟨fun c _ => rfl, fun _ => rfl⟩
  | cons d s ih =>
    have hd : d ≠ '«' := fun heq => hplain (by simp [heq])
    obtain ⟨ihKept, ihTaken⟩ := ih (fun hmem => hplain (List.mem_cons_of_mem d hmem)) hapart.of_cons
    constructor
    · intro c hc
      by_cases hquote : d = '"'
      · subst hquote
        have hhead := hapart.head?
        have hplainHere : ¬ (c = '"' ∨ c = '«') := fun h => hc h rfl
        have hopened : quoteBetween none s.head? = '"' ∨ quoteBetween none s.head? = '«' := by
          unfold quoteBetween
          split
          · contradiction
          · split <;> simp
        rw [openQuotes, if_pos rfl, apply_closingQuote_cons, setQuotes, if_pos rfl]
        by_cases hblank : isBlank c
        · have hsame : quoteBetween (some c) s.head? = quoteBetween none s.head? := by
            simp [quoteBetween, hblank]
          rw [if_neg (by simp [hblank]), ihKept _ fun _ => hhead, hsame,
            setQuotes_congr hhead (some '"')]
        · have hclosed : quoteBetween (some c) s.head? = '»' := by simp [quoteBetween, hblank]
          rw [if_pos ⟨by simpa using hblank, hopened⟩, ihTaken hhead, hclosed,
            setQuotes_congr hhead (some '"')]
      · rw [openQuotes_cons_of_ne hquote, setQuotes_cons_of_ne hquote, apply_closingQuote_cons,
          if_neg (by simp [hquote, hd]), ihKept d fun h => absurd h (by simp [hquote, hd])]
    · intro hhead
      have hquote : d ≠ '"' := by simpa using hhead
      rw [openQuotes_cons_of_ne hquote, setQuotes_cons_of_ne hquote]
      exact ihKept d fun h => absurd h (by simp [hquote, hd])

/-- Both rules together set every quote by its neighbours. -/
theorem apply_closingQuote_apply_openingQuote {s : Text} (hleft : '«' ∉ s) (hright : '»' ∉ s)
    (hapart : QuotesApart s) :
    Rule.apply closingQuote (Rule.apply openingQuote s) = setQuotes none s := by
  rw [apply_openingQuote hright hapart]
  obtain _ | ⟨c, s⟩ := s
  · rfl
  by_cases hc : c = '"'
  · subst hc
    have hkept := (apply_closingQuote_openQuotes
      (fun hmem => hleft (List.mem_cons_of_mem _ hmem)) hapart.of_cons).1
      (quoteBetween none s.head?) fun _ => hapart.head?
    rw [openQuotes, if_pos rfl, hkept, setQuotes, if_pos rfl, setQuotes_congr hapart.head?]
  · exact (apply_closingQuote_openQuotes hleft hapart).2 (by simpa using hc)

end PostMarkup.Typography
