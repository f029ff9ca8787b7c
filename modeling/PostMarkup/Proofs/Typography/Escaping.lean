import PostMarkup.Html.Writing
import PostMarkup.Proofs.Text.Escape
import PostMarkup.Proofs.Typography.Alphabet
import PostMarkup.Proofs.Typography.Quotes
import PostMarkup.Proofs.Typography.Separators

namespace PostMarkup.Typography

theorem RuleSet.not_mem_applyAfter {rules : RuleSet} (hrules : ∀ rule ∈ rules, rule.WritesSigns)
    {c : Char} (hc : c ∉ signs) (before : Option Char) {s : Text} (hs : c ∉ s) :
    c ∉ rules.applyAfter before s := by
  have hkept : ∀ rule ∈ rules, ∀ s, c ∉ s → c ∉ rule.scan before 0 s := by
    intro rule hrule s hs hmem
    obtain hsign | hmem := List.mem_append.1 ((hrules rule hrule).scan_subset before 0 s hmem)
    · exact hc hsign
    · exact hs hmem
  exact RuleSet.applyAfter_induction (fun s t => c ∉ s → c ∉ t) (fun _ => id)
    (fun _ _ _ h hnext hs => hnext (h hs)) hkept s hs

/-- Rules that see no further than separators see no difference between a bracket and the reference
    for it. -/
theorem RuleSet.applyAfter_escapeAngles {rules : RuleSet} (hrules : rules ⊆ RuleSet.html)
    (hnames : ∀ name ∈ ["lt".toList, "gt".toList], rules.applyAfter (some '&') name = name)
    (s : Text) {before other : Option Char} (hsome : before.isSome = other.isSome)
    (hword : before.any isWord = other.any isWord) :
    rules.applyAfter other (escapeAngles s) = escapeAngles (rules.applyAfter before s) := by
  have hlocal : ∀ rule ∈ rules, rule.IsLocal IsSeparator := fun _ hrule =>
    isLocal_of_mem_html (hrules hrule)
  have hplain (before : Option Char) (s : Text) (hs : ∀ c ∈ s, ¬ (c = '<' ∨ c = '>')) :
      ∀ c ∈ rules.applyAfter before s, c ≠ '<' ∧ c ≠ '>' := by
    have hsigns : ∀ c ∈ ['<', '>'], c ∉ signs := Text.forall_of_all (by decide)
    have hkept : ∀ c ∈ ['<', '>'], c ∉ rules.applyAfter before s := fun c hc =>
      RuleSet.not_mem_applyAfter (fun _ hrule => writesSigns_of_mem_html (hrules hrule))
        (hsigns c hc) before fun hmem => hs c hmem (by simpa using hc)
    exact fun c hmem =>
      ⟨fun heq => hkept '<' (by simp) (heq ▸ hmem), fun heq => hkept '>' (by simp) (heq ▸ hmem)⟩
  induction s using Text.separator_induction (p := fun c => c = '<' ∨ c = '>')
    generalizing before other with
  | plain s hs =>
    rw [escapeAngles_of_forall fun c hc => not_or.1 (hs c hc), escapeAngles_of_forall (hplain _ s hs)]
    exact RuleSet.applyAfter_congr hlocal hsome.symm hword.symm s
  | divided u q v hu hq ih =>
    have hseparators : ∀ c ∈ "<>&;".toList, IsSeparator c := Text.forall_of_all (by decide +kernel)
    have hangle : IsSeparator q := by
      obtain rfl | rfl := hq <;> exact hseparators _ (by simp)
    have hlater : rules.applyAfter (some ';') (escapeAngles v) =
        escapeAngles (rules.applyAfter (some q) v) :=
      ih rfl (by simpa [(hseparators ';' (by simp)).word] using hangle.word)
    obtain ⟨name, hname, hescape⟩ := exists_escapeAngles_cons hq
    rw [escapeAngles_append_of_forall fun c hc => not_or.1 (hu c hc), hescape,
      RuleSet.applyAfter_append hlocal (hseparators '&' (by simp)),
      RuleSet.applyAfter_append hlocal (hseparators ';' (by simp)), hnames name hname,
      RuleSet.applyAfter_append hlocal hangle,
      escapeAngles_append_of_forall (hplain before u hu), hescape,
      RuleSet.applyAfter_congr hlocal hsome.symm hword.symm u, hlater]

theorem apply_openingQuote_append {kept : Text} (hkept : ∀ c ∈ kept, c ≠ '"' ∧ c ≠ '»') (s : Text) :
    Rule.apply openingQuote (kept ++ s) = kept ++ Rule.apply openingQuote s := by
  induction kept with
  | nil => rfl
  | cons c kept ih =>
    obtain ⟨hc, hkept⟩ := List.forall_mem_cons.1 hkept
    rw [List.cons_append, apply_openingQuote_cons_of_not (by simp [hc]), ih hkept, List.cons_append]

theorem apply_closingQuote_append {kept s : Text} (hkept : ∀ c ∈ kept, c ≠ '"' ∧ c ≠ '«')
    (hs : s.head?.any (fun d => d = '"' || d = '«') = false) :
    Rule.apply closingQuote (kept ++ s) = kept ++ Rule.apply closingQuote s := by
  induction kept with
  | nil => rfl
  | cons c kept ih =>
    obtain ⟨-, hkept⟩ := List.forall_mem_cons.1 hkept
    have hhead : (kept ++ s).head?.any (fun d => d = '"' || d = '«') = false := by
      cases kept with
      | nil => exact hs
      | cons d kept => simpa using hkept d (by simp)
    have hopen : ¬ (isBlank c = false ∧ (kept ++ s).head?.any fun d => d = '"' || d = '«') := by
      rw [hhead]
      simp
    rw [List.cons_append, apply_closingQuote_cons_of_not hopen, ih hkept, List.cons_append]

/-- The characters that a bracket is escaped with. -/
theorem forall_mem_escape : ∀ name ∈ ["lt".toList, "gt".toList],
    ∀ c ∈ '&' :: name ++ [';'], c ≠ '"' ∧ c ≠ '»' ∧ c ≠ '«' := by
  have hall : ∀ name ∈ ["lt".toList, "gt".toList], ('&' :: name ++ [';']).all
      fun c => decide (c ≠ '"' ∧ c ≠ '»' ∧ c ≠ '«') := by decide
  exact fun name hname => Text.forall_of_all (hall name hname)

/-- The opening rule takes in the ampersand for the bracket, and nothing opens among the characters
    after it. -/
theorem apply_openingQuote_escapeAngles (s : Text) :
    Rule.apply openingQuote (escapeAngles s) = escapeAngles (Rule.apply openingQuote s) := by
  induction hlength : s.length using Nat.strongRecOn generalizing s with
  | _ n ih =>
  subst hlength
  obtain _ | ⟨c, s⟩ := s
  · rfl
  have hrest := ih s.length (by simp) s rfl
  have hhead := any_head?_escapeAngles (p := (!isBlank ·)) (by decide) (by decide) s
  by_cases hangle : c = '<' ∨ c = '>'
  · obtain ⟨name, hname, hescape⟩ := exists_escapeAngles_cons hangle
    have hkept : ∀ d ∈ '&' :: name ++ [';'], d ≠ '"' ∧ d ≠ '»' := fun d hd =>
      ⟨(forall_mem_escape name hname d hd).1, (forall_mem_escape name hname d hd).2.1⟩
    have hc : ¬ (c = '"' ∨ c = '»') := by
      obtain rfl | rfl := hangle <;> decide
    have happend := apply_openingQuote_append hkept (escapeAngles s)
    rw [apply_openingQuote_cons_of_not fun h => hc h.1, hescape, hescape, ← hrest]
    simpa using happend
  · by_cases hopens : (c = '"' ∨ c = '»') ∧ s.head?.any (!isBlank ·)
    · obtain _ | ⟨d, s⟩ := s
      · simp at hopens
      have hd : isBlank d = false := by simpa using hopens.2
      have hlater := ih s.length (by simp only [List.length_cons]; omega) s rfl
      have hleft : '«' ≠ '<' ∧ '«' ≠ '>' := by decide
      rw [apply_openingQuote_cons, if_pos ⟨hopens.1, hd⟩, escapeAngles_cons hleft,
        escapeAngles_cons (not_or.1 hangle)]
      by_cases hdangle : d = '<' ∨ d = '>'
      · -- The match ends in the reference, and the rule passes over the rest of it.
        obtain ⟨name, hname, hescape⟩ := exists_escapeAngles_cons hdangle
        have hkept : ∀ e ∈ name ++ [';'], e ≠ '"' ∧ e ≠ '»' := fun e he =>
          have hall := forall_mem_escape name hname e (List.mem_cons_of_mem '&' he)
          ⟨hall.1, hall.2.1⟩
        have happend := apply_openingQuote_append hkept (escapeAngles s)
        rw [hescape, hescape, apply_openingQuote_cons, if_pos ⟨hopens.1, by decide⟩, ← hlater]
        simpa using happend
      · rw [escapeAngles_cons (not_or.1 hdangle), escapeAngles_cons (not_or.1 hdangle),
          apply_openingQuote_cons, if_pos ⟨hopens.1, hd⟩, hlater]
    · rw [apply_openingQuote_cons_of_not hopens, escapeAngles_cons (not_or.1 hangle),
        escapeAngles_cons (not_or.1 hangle), apply_openingQuote_cons_of_not (by rwa [hhead]), hrest]

/-- The closing rule takes in the semicolon for the bracket. -/
theorem apply_closingQuote_escapeAngles (s : Text) :
    Rule.apply closingQuote (escapeAngles s) = escapeAngles (Rule.apply closingQuote s) := by
  induction hlength : s.length using Nat.strongRecOn generalizing s with
  | _ n ih =>
  subst hlength
  obtain _ | ⟨c, s⟩ := s
  · rfl
  have hrest := ih s.length (by simp) s rfl
  have hhead := any_head?_escapeAngles (p := fun d => d = '"' || d = '«') (by decide) (by decide) s
  by_cases hcloses : isBlank c = false ∧ s.head?.any fun d => d = '"' || d = '«'
  · obtain _ | ⟨d, s⟩ := s
    · simp at hcloses
    have hd : d = '"' ∨ d = '«' := by simpa using hcloses.2
    have hlater := ih s.length (by simp only [List.length_cons]; omega) s rfl
    have hquote : d ≠ '<' ∧ d ≠ '>' := by
      obtain rfl | rfl := hd <;> decide
    have hright : '»' ≠ '<' ∧ '»' ≠ '>' := by decide
    rw [apply_closingQuote_cons, if_pos ⟨hcloses.1, hd⟩]
    by_cases hangle : c = '<' ∨ c = '>'
    · obtain ⟨name, hname, hescape⟩ := exists_escapeAngles_cons hangle
      have hkept : ∀ e ∈ '&' :: name, e ≠ '"' ∧ e ≠ '«' := fun e he =>
        have hall := forall_mem_escape name hname e (List.mem_append_left _ he)
        ⟨hall.1, hall.2.2⟩
      have happend := apply_closingQuote_append (s := ';' :: d :: escapeAngles s) hkept (by simp)
      rw [hescape, hescape, escapeAngles_cons hquote, escapeAngles_cons hright, ← hlater]
      rw [apply_closingQuote_cons, if_pos ⟨by decide, hd⟩] at happend
      simpa using happend
    · rw [escapeAngles_cons (not_or.1 hangle), escapeAngles_cons hquote,
        escapeAngles_cons (not_or.1 hangle), escapeAngles_cons hright, apply_closingQuote_cons,
        if_pos ⟨hcloses.1, hd⟩, hlater]
  · rw [apply_closingQuote_cons_of_not hcloses]
    by_cases hangle : c = '<' ∨ c = '>'
    · obtain ⟨name, hname, hescape⟩ := exists_escapeAngles_cons hangle
      have hkept : ∀ d ∈ '&' :: name ++ [';'], d ≠ '"' ∧ d ≠ '«' := fun d hd =>
        ⟨(forall_mem_escape name hname d hd).1, (forall_mem_escape name hname d hd).2.2⟩
      have hc : isBlank c = false := by
        obtain rfl | rfl := hangle <;> decide
      have hnext : (escapeAngles s).head?.any (fun d => d = '"' || d = '«') = false := by
        rw [hhead]
        simpa [hc] using hcloses
      have happend := apply_closingQuote_append hkept hnext
      rw [hescape, hescape, ← hrest]
      simpa using happend
    · rw [escapeAngles_cons (not_or.1 hangle), escapeAngles_cons (not_or.1 hangle),
        apply_closingQuote_cons_of_not (by rwa [hhead]), hrest]

/-- Typography and escaping change places: a text that is escaped first gets the substitutions of the
    plain text, and so the text nodes of both passes over HTML do. -/
theorem apply_escapeAngles (s : Text) :
    RuleSet.html.apply (escapeAngles s) = escapeAngles (RuleSet.html.apply s) ∧
    ('&' ∉ s → RuleSet.inline.apply (escapeText s) = escapeAngles (RuleSet.inline.apply s)) ∧
    (∀ place, Html.stored.policy.typographs place.policyState →
      Html.stored.writeText place s = escapeAngles (RuleSet.html.apply s)) ∧
    (∀ place, Html.inlineFragment.policy.typographs place.policyState → place.inRawText = false →
      '&' ∉ s → Html.inlineFragment.writeText place s = escapeAngles (RuleSet.inline.apply s)) := by
  have hhtml : RuleSet.html.apply (escapeAngles s) = escapeAngles (RuleSet.html.apply s) :=
    RuleSet.applyAfter_escapeAngles (fun _ => id) (by decide +kernel) s rfl rfl
  have hinline (hs : '&' ∉ s) :
      RuleSet.inline.apply (escapeText s) = escapeAngles (RuleSet.inline.apply s) := by
    have hshared : RuleSet.shared.apply (escapeAngles s) = escapeAngles (RuleSet.shared.apply s) :=
      RuleSet.applyAfter_escapeAngles (List.subset_append_left _ _) (by decide +kernel) s rfl rfl
    rw [escapeText_of_not_mem hs, RuleSet.inline_apply, RuleSet.inline_apply, hshared,
      apply_openingQuote_escapeAngles, apply_closingQuote_escapeAngles]
  refine ⟨hhtml, hinline, fun place htypographs => ?_, fun place htypographs hraw hs => ?_⟩
  · rw [← hhtml, Html.Style.writeText, htypographs]
    rfl
  · rw [← hinline hs, Html.Style.writeText, hraw, htypographs]
    rfl

/-- Each quote takes in the bracket beside it. -/
theorem apply_escapeAngles_beside_quotes :
    '&' ∉ "\"<a- 1/2>\"".toList ∧
    Html.stored.writeText ⟨{}, false⟩ "\"<a- 1/2>\"".toList =
      "\"&lt;a&nbsp;&mdash; &frac12;&gt;\"".toList ∧
    RuleSet.inline.apply (escapeText "\"<a- 1/2>\"".toList) =
      "«&lt;a&nbsp;&mdash; 1/2&gt;»".toList ∧
    Html.inlineFragment.writeText ⟨["p".toList], false⟩ "\"<a- 1/2>\"".toList =
      "«&lt;a&nbsp;&mdash; 1/2&gt;»".toList := by
  have hplain : '&' ∉ "\"<a- 1/2>\"".toList := by decide
  obtain ⟨-, hinline, hstored, hfragment⟩ := apply_escapeAngles "\"<a- 1/2>\"".toList
  refine ⟨hplain, ?_, ?_, ?_⟩
  · exact (hstored ⟨{}, false⟩ (by decide)).trans (by decide +kernel)
  · exact (hinline hplain).trans (by decide +kernel)
  · exact (hfragment ⟨["p".toList], false⟩ (by decide) rfl hplain).trans (by decide +kernel)

end PostMarkup.Typography
