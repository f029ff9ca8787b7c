import PostMarkup.Proofs.Typography.MinusSigns
import PostMarkup.Proofs.Typography.Separators

namespace PostMarkup.Typography

/-- Every hyphen between two digits in the second text is one of the first, with the sign before it if
    that has one there. -/
def HyphensFrom (follows : Text → Prop) (s t : Text) : Prop :=
  ∀ front rest, t = front ++ rest → AnyHyphenAt rest →
    ∃ source sourceRest, s = source ++ sourceRest ∧ HyphenAt follows sourceRest ∧
      (minusSign <:+ source → minusSign <:+ front)

/-- The rules for quotes take in no sign and no hyphen between digits. -/
theorem leavesHyphens_quote {c d : Char} (hc : c ∈ "\"«»".toList) (hd : d ∈ "\"«»".toList) :
    LeavesHyphens [c] [d] ∧ ∀ e ∈ minusSign, e ∉ [c] := by
  have hmarks : "\"«»".toList ⊆ "+-—.\"«»".toList := by decide
  have hquote : ∀ c ∈ "\"«»".toList, c ≠ '-' ∧ c ∉ minusSign := Text.forall_of_all (by decide)
  refine ⟨⟨⟨isMark_of_forall (by simp) ?_, ?_⟩, isMark_of_forall (by simp) ?_, ?_⟩, ?_⟩
  · exact fun e he => .inr (hmarks (List.mem_singleton.1 he ▸ hc))
  · simpa using (hquote c hc).1
  · exact fun e he => .inr (hmarks (List.mem_singleton.1 he ▸ hd))
  · simpa using (hquote d hd).1
  · intro e he hmem
    obtain rfl := List.mem_singleton.1 hmem
    exact (hquote e hc).2 he

theorem replaces_quotes {rule : Rule} (hrule : rule ∈ [openingQuote, closingQuote]) :
    rule.Replaces fun u v => LeavesHyphens u v ∧ ∀ c ∈ minusSign, c ∉ u := by
  have hopening : "\"»".toList ⊆ "\"«»".toList := by decide
  have hclosing : "\"«".toList ⊆ "\"«»".toList := by decide
  obtain rfl | rfl : rule = openingQuote ∨ rule = closingQuote := by simpa using hrule
  · exact replaces_openingQuote fun c hc => leavesHyphens_quote (hopening hc) (by simp)
  · exact replaces_closingQuote fun c hc => leavesHyphens_quote (hclosing hc) (by simp)

theorem hyphensFrom_quotes (s : Text) :
    HyphensFrom (fun _ => True) s (RuleSet.apply [openingQuote, closingQuote] s) := by
  refine RuleSet.applyAfter_induction (HyphensFrom fun _ => True) ?_ ?_ (fun rule hrule s => ?_) s
  · exact fun s front rest heq hrest => ⟨front, rest, heq, hrest, id⟩
  · intro s t u h hnext front rest heq hrest
    obtain ⟨middle, middleRest, hmiddle, hmiddleRest, hsign⟩ := hnext front rest heq hrest
    obtain ⟨source, sourceRest, hsource, hsourceRest, hsign'⟩ := h _ _ hmiddle hmiddleRest
    exact ⟨source, sourceRest, hsource, hsourceRest, fun hsuffix => hsign (hsign' hsuffix)⟩
  · intro front rest heq hrest
    have h := (replaces_quotes hrule).scan none 0 s
    rw [heq] at h
    obtain ⟨source, sourceRest, hsource, hsourceRest, hfront⟩ :=
      HyphenAt.exists_of_replaced (fun u v huv => And.symm huv.1) (fun _ _ _ => id) hrest h.symm
    exact ⟨source, sourceRest, hsource, hsourceRest,
      hfront.symm.suffix (fun u v huv => huv.1.1.nonempty) fun u v huv => huv.2⟩

theorem replaces_fractions {rule : Rule} (hrule : rule ∈ RuleSet.fractions) :
    rule.Replaces fun u v => ∃ entry ∈ symbols, u = entry.1 ∧ v = reference entry.1 := by
  obtain ⟨entry, hentry, rfl⟩ := List.mem_map.1 hrule
  have hnonempty : ∀ entry ∈ symbols, entry.1 ≠ [] := by decide
  exact replaces_symbol (hnonempty entry hentry) ⟨entry, hentry, rfl, rfl⟩

theorem isLocal_fractions {rule : Rule} (hrule : rule ∈ RuleSet.fractions) :
    rule.IsLocal (· ∈ "-;".toList) := by
  obtain ⟨entry, hentry, rfl⟩ := List.mem_map.1 hrule
  have hstops : ∀ entry ∈ symbols, entry.1 ≠ [] ∧
      "-;".toList.all fun q => decide (isWord q = false ∧ q ∉ entry.1) := by decide +kernel
  obtain ⟨hnonempty, hmarks⟩ := hstops entry hentry
  exact (isLocal_symbol hnonempty).mono (Text.forall_of_all hmarks)

theorem not_mem_applyAfter_fractions (before : Option Char) {s : Text} (hs : '-' ∉ s) :
    '-' ∉ RuleSet.fractions.applyAfter before s := by
  have hwritten : ∀ entry ∈ symbols, '-' ∉ reference entry.1 := by decide
  refine RuleSet.applyAfter_induction (fun s t => '-' ∉ s → '-' ∉ t) (fun _ => id)
    (fun _ _ _ h hnext hs => hnext (h hs)) (fun rule hrule s hs hmem => hs ?_) s hs
  refine ((replaces_fractions hrule).scan before 0 s).mem_of_mem ?_ hmem
  rintro u v ⟨entry, hentry, rfl, rfl⟩
  exact hwritten entry hentry

/-- A digit at the end is kept, and so is a minus sign before it. -/
theorem exists_of_applyAfter_fractions {before : Option Char} {source front : Text} {a : Char}
    (ha : isDecimal a) (hfront : RuleSet.fractions.applyAfter before source = front ++ [a]) :
    ∃ lead, source = lead ++ [a] ∧ (minusSign <:+ lead → minusSign <:+ front) := by
  have hsymbols : ∀ entry ∈ symbols, entry.1 ≠ [] ∧ (reference entry.1).getLast? = some ';' ∧
      minusSign.all fun c => decide (c ∉ entry.1) := by decide
  refine RuleSet.applyAfter_induction (fun s t => ∀ front, t = front ++ [a] →
      ∃ lead, s = lead ++ [a] ∧ (minusSign <:+ lead → minusSign <:+ front)) ?_ ?_
    (fun rule hrule s => ?_) source front hfront
  · exact fun s front heq => ⟨front, heq, id⟩
  · intro s t u h hnext front heq
    obtain ⟨middle, hmiddle, hsign⟩ := hnext front heq
    obtain ⟨lead, hlead, hsign'⟩ := h middle hmiddle
    exact ⟨lead, hlead, fun hsuffix => hsign (hsign' hsuffix)⟩
  · intro front heq
    have h := (replaces_fractions hrule).scan before 0 s
    rw [heq] at h
    obtain ⟨lead, hlead, hreplaced⟩ := h.exists_of_concat <| by
      rintro u v ⟨entry, hentry, rfl, rfl⟩
      refine ⟨by simp [reference], fun hlast => ?_⟩
      rw [(hsymbols entry hentry).2.1] at hlast
      obtain rfl := Option.some.inj hlast
      exact absurd ha (by decide)
    refine ⟨lead, hlead, hreplaced.suffix ?_ ?_⟩
    · rintro u v ⟨entry, hentry, rfl, rfl⟩
      exact (hsymbols entry hentry).1
    · rintro u v ⟨entry, hentry, rfl, rfl⟩
      exact Text.forall_of_all (hsymbols entry hentry).2.2

theorem head?_applyAfter_fractions {before : Option Char} (hbefore : before.any isWord = false)
    (c : Char) (s : Text) : (RuleSet.fractions.applyAfter before (c :: s)).head? =
      if FractionAt (c :: s) then some '&' else some c :=
  head?_applyAfter_symbols (List.Subset.refl _) hbefore c s

theorem hyphensFrom_fractions (s : Text) :
    HyphensFrom (fun rest => ¬ FractionAt rest) s (RuleSet.fractions.apply s) := by
  rintro front rest heq ⟨a, rest, rfl, ha, hb, -⟩
  -- No fraction goes over a hyphen, so both sides of it are typographed by themselves.
  have hsplit : RuleSet.fractions.applyAfter none s = (front ++ [a]) ++ '-' :: rest := by
    rw [RuleSet.applyAfter_none, heq, List.append_assoc, List.singleton_append]
  obtain ⟨source, sourceRest, rfl, hfront, rfl⟩ := RuleSet.exists_of_applyAfter_eq
    (fun _ => isLocal_fractions) (by decide) (fun other s => not_mem_applyAfter_fractions other) hsplit
  obtain ⟨lead, rfl, hsign⟩ := exists_of_applyAfter_fractions ha hfront.symm
  obtain _ | ⟨b, sourceRest⟩ := sourceRest
  · contradiction
  rw [head?_applyAfter_fractions (by decide)] at hb
  split at hb
  · exact absurd hb (by decide)
  · next hnone =>
    exact ⟨lead, a :: '-' :: b :: sourceRest, by simp, ⟨a, _, rfl, ha, hb, hnone⟩, hsign⟩

theorem applyAfter_fractions_singleton (before : Option Char) (c : Char) :
    RuleSet.fractions.applyAfter before [c] = [c] := by
  have hlong : ∀ entry ∈ symbols, entry.1.length = 3 := by decide
  refine RuleSet.applyAfter_induction (fun s t => s = [c] → t = [c]) (fun _ => id)
    (fun _ _ _ h hnext hs => hnext (h hs)) (fun rule hrule s hs => ?_) [c] rfl
  subst hs
  refine ((replaces_fractions hrule).scan before 0 [c]).eq_singleton ?_ ?_
  · rintro u v ⟨entry, hentry, rfl, rfl⟩ heq
    simpa [heq] using hlong entry hentry
  · rintro u v ⟨entry, hentry, rfl, rfl⟩ heq
    simpa [heq] using hlong entry hentry

/-- A hyphen after a sign and one more digit is kept between its digits, if no fraction takes the
    second. -/
theorem somewhere_anyHyphenAt_fractions {front rest : Text} (hsign : minusSign <:+ front)
    (hrest : HyphenAt (fun rest => ¬ FractionAt rest) rest) :
    Somewhere AnyHyphenAt (RuleSet.fractions.apply (front ++ rest)) := by
  obtain ⟨lead, rfl⟩ := hsign
  obtain ⟨a, _ | ⟨b, rest⟩, rfl, ha, hb, hnone⟩ := hrest
  · contradiction
  -- The semicolon before the first digit keeps it out of fractions, as the hyphen after it does.
  have hminus : minusSign = "&minus".toList ++ [';'] := by decide
  have hsplit : lead ++ minusSign ++ a :: '-' :: b :: rest =
      (lead ++ "&minus".toList) ++ ';' :: ([a] ++ '-' :: b :: rest) := by
    simp [hminus]
  have hhyphen : (some '-').any isWord = false := by decide
  have hhead := head?_applyAfter_fractions hhyphen b rest
  rw [if_neg hnone] at hhead
  obtain ⟨tail, htail⟩ := List.head?_eq_some_iff.1 hhead
  rw [← RuleSet.applyAfter_none, hsplit,
    RuleSet.applyAfter_append (fun _ => isLocal_fractions) (by decide),
    RuleSet.applyAfter_append (fun _ => isLocal_fractions) (by decide),
    applyAfter_fractions_singleton, htail]
  exact ⟨RuleSet.fractions.applyAfter none (lead ++ "&minus".toList) ++ [';'],
    a :: '-' :: b :: tail, by simp, a, b :: tail, rfl, ha, by simpa using hb, trivial⟩

/-- A hyphen that the rules leave between two digits has a minus sign before the first of them. -/
theorem HyphensFrom.minusSign_suffix {follows : Text → Prop} {s t front rest : Text}
    (h : HyphensFrom follows (RuleSet.shared.apply s) t) (hsplit : t = front ++ rest)
    (hrest : AnyHyphenAt rest) : minusSign <:+ front := by
  obtain ⟨source, sourceRest, hsource, hsourceRest, hsign⟩ := h front rest hsplit hrest
  rw [RuleSet.shared_apply] at hsource
  exact hsign (minusSign_suffix_of_apply_digitMinus hsource (hsourceRest.mono fun _ _ => trivial))

theorem not_fractionAt_hyphen (c : Char) (s : Text) : ¬ FractionAt (c :: '-' :: s) := by
  rintro ⟨entry, hentry, hstands⟩
  obtain ⟨n, d, hspelling, -⟩ := exists_of_mem_symbols hentry
  rw [hspelling, standsAt_cons_iff] at hstands
  obtain ⟨-, rest, heq, -⟩ := hstands
  exact absurd (List.cons.inj heq).1 (by decide)

theorem somewhere_anyHyphenAt_html (s : Text) : Somewhere AnyHyphenAt (RuleSet.html.apply s) ↔
    Somewhere (HyphenAt (HyphenAt fun rest => ¬ FractionAt rest)) s := by
  have hshared := somewhere_hyphenAt_shared
    (fun u v h => (h.fractionAt_iff fun _ _ => id).not.2)
    (fun a rest _ => not_fractionAt_hyphen a rest) s
  rw [← hshared, RuleSet.html_apply]
  constructor
  · rintro ⟨front, rest, hsplit, hrest⟩
    obtain ⟨source, sourceRest, hsource, hsourceRest, -⟩ :=
      hyphensFrom_fractions _ front rest hsplit hrest
    exact ⟨source, sourceRest, hsource, hsourceRest⟩
  · rintro ⟨front, rest, hsplit, hrest⟩
    have hsign : minusSign <:+ front :=
      minusSign_suffix_of_apply_digitMinus hsplit (hrest.mono fun _ _ => trivial)
    rw [hsplit]
    exact somewhere_anyHyphenAt_fractions hsign hrest

theorem somewhere_anyHyphenAt_inline (s : Text) : Somewhere AnyHyphenAt (RuleSet.inline.apply s) ↔
    Somewhere (HyphenAt AnyHyphenAt) s := by
  have hquotes : Somewhere AnyHyphenAt (RuleSet.inline.apply s) ↔
      Somewhere AnyHyphenAt (RuleSet.shared.apply s) :=
    RuleSet.somewhere_hyphenAt_apply
      (fun _ hrule before s found hfound =>
        (replaces_quotes hrule before s found hfound).mono fun _ _ => And.left)
      (fun _ _ _ => id) (RuleSet.shared.apply s)
  exact hquotes.trans (somewhere_hyphenAt_shared (fun _ _ _ => id) (fun _ _ _ => trivial) s)

/-- What is left of the hyphens between digits. Before the digits of each stands a minus sign, and
    there is one where three digits have hyphens between them, unless a fraction begins with the
    third. -/
theorem apply_hyphens (s : Text) :
    (∀ rules ∈ [RuleSet.html, RuleSet.inline], ∀ front rest, rules.apply s = front ++ rest →
      AnyHyphenAt rest → minusSign <:+ front) ∧
    (Somewhere AnyHyphenAt (RuleSet.html.apply s) ↔
      Somewhere (HyphenAt (HyphenAt fun rest => ¬ FractionAt rest)) s) ∧
    (Somewhere AnyHyphenAt (RuleSet.inline.apply s) ↔ Somewhere (HyphenAt AnyHyphenAt) s) := by
  refine ⟨?_, somewhere_anyHyphenAt_html s, somewhere_anyHyphenAt_inline s⟩
  simp only [List.forall_mem_cons]
  refine ⟨fun front rest => ?_, fun front rest => ?_, by simp⟩
  · exact (hyphensFrom_fractions _).minusSign_suffix
  · exact (hyphensFrom_quotes _).minusSign_suffix

/-- Of three digits the last two keep their hyphen. -/
theorem apply_hyphens_of_three_digits :
    RuleSet.html.apply "1-2-3".toList = "1&minus;".toList ++ "2-3".toList ∧
    AnyHyphenAt "2-3".toList ∧ minusSign <:+ "1&minus;".toList ∧
    Somewhere AnyHyphenAt (RuleSet.inline.apply "1-2-3".toList) := by
  have hsplit : RuleSet.html.apply "1-2-3".toList = "1&minus;".toList ++ "2-3".toList := by
    decide +kernel
  have hhyphen : AnyHyphenAt "2-3".toList :=
    ⟨'2', "3".toList, by decide, by decide, by decide, trivial⟩
  obtain ⟨hsign, -, hinline⟩ := apply_hyphens "1-2-3".toList
  refine ⟨hsplit, hhyphen, hsign _ (by simp) _ _ hsplit hhyphen, hinline.2 ?_⟩
  exact ⟨[], "1-2-3".toList, by simp, '1', "2-3".toList, by decide, by decide, by decide, hhyphen⟩

/-- So the rule does not reach every hyphen between two digits. -/
theorem three_digits_keep_hyphen :
    (¬ ∀ front a b rest, RuleSet.html.apply "1-2-3".toList = front ++ a :: '-' :: b :: rest →
      ¬ (isDecimal a ∧ isDecimal b)) ∧
    (¬ ∀ front a b rest, RuleSet.inline.apply "1-2-3".toList = front ++ a :: '-' :: b :: rest →
      ¬ (isDecimal a ∧ isDecimal b)) := by
  have hdigits : isDecimal '2' ∧ isDecimal '3' := by decide
  constructor
  · exact fun h => h "1&minus;".toList '2' '3' [] (by decide +kernel) hdigits
  · exact fun h => h "1&minus;".toList '2' '3' [] (by decide +kernel) hdigits

end PostMarkup.Typography
