import PostMarkup.Proofs.Text.Cutting
import PostMarkup.Proofs.Typography.Signs

namespace PostMarkup.Typography

/-- The characters that signs and fractions are typed with, digits apart. -/
def typedMarks : Text := "+-—./".toList

/-- A character that no match of those rules takes in, and that ends words and runs of blanks. -/
structure IsSeparator (q : Char) : Prop where
  word : isWord q = false
  blank : isBlank q = false
  decimal : isDecimal q = false
  mark : q ∉ typedMarks

instance : DecidablePred IsSeparator := fun q =>
  decidable_of_iff (isWord q = false ∧ isBlank q = false ∧ isDecimal q = false ∧ q ∉ typedMarks)
    ⟨fun ⟨hword, hblank, hdecimal, hmark⟩ => ⟨hword, hblank, hdecimal, hmark⟩,
     fun h => ⟨h.word, h.blank, h.decimal, h.mark⟩⟩

theorem IsSeparator.ne_of_mem {q c : Char} (hq : IsSeparator q) (hc : c ∈ typedMarks) : q ≠ c := by
  rintro rfl
  exact hq.mark hc

/-- A rule that sees no further than the next character of this kind, and behind itself only whether
    there is a character and whether it belongs to a word. -/
structure Rule.IsLocal (rule : Rule) (stops : Char → Prop) : Prop where
  fits : ∀ before s found, rule before s = some found → found.more < s.length
  ahead : ∀ before s q t, stops q → rule before (s ++ q :: t) = rule before s
  behind : ∀ before other s, before.isSome = other.isSome → before.any isWord = other.any isWord →
    rule before s = rule other s

section

variable {rule : Rule} {stops : Char → Prop} (hrule : rule.IsLocal stops)

include hrule

theorem Rule.IsLocal.mono {other : Char → Prop} (hstops : ∀ q, other q → stops q) :
    rule.IsLocal other where
  fits := hrule.fits
  ahead before s q t hq := hrule.ahead before s q t (hstops q hq)
  behind := hrule.behind

theorem Rule.IsLocal.nil (before : Option Char) : rule before [] = none :=
  Option.eq_none_iff_forall_ne_some.2 fun found hfound =>
    Nat.not_lt_zero _ (hrule.fits before [] found hfound)

theorem Rule.IsLocal.separator {q : Char} (hq : stops q) (before : Option Char) (s : Text) :
    rule before (q :: s) = none :=
  (hrule.ahead before [] q s hq).trans (hrule.nil before)

/-- A scan works on both sides of a separator by itself. -/
theorem Rule.IsLocal.scan_append {q : Char} (hq : stops q) (before : Option Char)
    {covered : Nat} {s : Text} (hcovered : covered ≤ s.length) (t : Text) :
    rule.scan before covered (s ++ q :: t) =
      rule.scan before covered s ++ q :: rule.scan (some q) 0 t := by
  induction s generalizing before covered with
  | nil =>
    obtain rfl : covered = 0 := Nat.le_zero.1 hcovered
    simp only [List.nil_append, Rule.scan, hrule.separator hq]
  | cons c s ih =>
    cases covered with
    | succ covered => exact ih (some c) (Nat.le_of_succ_le_succ hcovered)
    | zero =>
      have hahead := hrule.ahead before (c :: s) q t hq
      simp only [List.cons_append] at hahead
      simp only [List.cons_append, Rule.scan, hahead]
      cases hfound : rule before (c :: s) with
      | none => simp [ih (some c) (Nat.zero_le _)]
      | some found =>
        have hfits := hrule.fits before (c :: s) found hfound
        simp [ih (some c) (Nat.le_of_lt_succ hfits)]

theorem Rule.IsLocal.scan_congr {before other : Option Char} (hsome : before.isSome = other.isSome)
    (hword : before.any isWord = other.any isWord) (s : Text) :
    rule.scan before 0 s = rule.scan other 0 s := by
  cases s with
  | nil => rfl
  | cons c s => simp only [Rule.scan, hrule.behind before other (c :: s) hsome hword]

end

/-- The rules run one after the other on a text that has this character before it. -/
def RuleSet.applyAfter (before : Option Char) (rules : RuleSet) (s : Text) : Text :=
  rules.foldl (fun t rule => rule.scan before 0 t) s

theorem RuleSet.applyAfter_none (rules : RuleSet) (s : Text) :
    rules.applyAfter none s = rules.apply s := rfl

theorem RuleSet.applyAfter_cons (before : Option Char) (rule : Rule) (rules : RuleSet) (s : Text) :
    RuleSet.applyAfter before (rule :: rules) s = rules.applyAfter before (rule.scan before 0 s) :=
  rfl

/-- A relation that holds between the text before each rule and after it holds between the text
    before all the rules and after them. -/
theorem RuleSet.applyAfter_induction (related : Text → Text → Prop) (hrefl : ∀ s, related s s)
    (htrans : ∀ s t u, related s t → related t u → related s u) {rules : RuleSet}
    {before : Option Char} (hrules : ∀ rule ∈ rules, ∀ s, related s (rule.scan before 0 s))
    (s : Text) : related s (rules.applyAfter before s) := by
  induction rules generalizing s with
  | nil => exact hrefl s
  | cons rule rules ih =>
    obtain ⟨hrule, hrules⟩ := List.forall_mem_cons.1 hrules
    exact htrans _ _ _ (hrule s) (ih hrules (rule.scan before 0 s))

/-- Induction along the separators of a text: the first piece has none, and what follows its separator
    is the smaller text. -/
theorem Text.separator_induction {p : Char → Prop} {motive : Text → Prop}
    (plain : ∀ s, (∀ c ∈ s, ¬ p c) → motive s)
    (divided : ∀ u q v, (∀ c ∈ u, ¬ p c) → p q → motive v → motive (u ++ q :: v)) (s : Text) :
    motive s := by
  suffices hgrown : ∀ u : Text, (∀ c ∈ u, ¬ p c) → motive (u ++ s) from hgrown [] (by simp)
  induction s with
  | nil =>
    intro u hu
    rw [List.append_nil]
    exact plain u hu
  | cons c s ih =>
    intro u hu
    by_cases hc : p c
    · exact divided u c s hu hc (ih [] (by simp))
    · have hgrown : ∀ d ∈ u ++ [c], ¬ p d := by simpa [or_imp, forall_and, hc] using hu
      simpa using ih (u ++ [c]) hgrown

section

variable {rules : RuleSet} {stops : Char → Prop} (hrules : ∀ rule ∈ rules, rule.IsLocal stops)

include hrules

theorem RuleSet.applyAfter_append {q : Char} (hq : stops q) (before : Option Char)
    (s t : Text) :
    rules.applyAfter before (s ++ q :: t) =
      rules.applyAfter before s ++ q :: rules.applyAfter (some q) t := by
  induction rules generalizing s t with
  | nil => rfl
  | cons rule rules ih =>
    obtain ⟨hrule, hrules⟩ := List.forall_mem_cons.1 hrules
    simp only [RuleSet.applyAfter_cons, hrule.scan_append hq before (Nat.zero_le _) t]
    exact ih hrules _ _

theorem RuleSet.applyAfter_congr {before other : Option Char} (hsome : before.isSome = other.isSome)
    (hword : before.any isWord = other.any isWord) (s : Text) :
    rules.applyAfter before s = rules.applyAfter other s := by
  induction rules generalizing s with
  | nil => rfl
  | cons rule rules ih =>
    obtain ⟨hrule, hrules⟩ := List.forall_mem_cons.1 hrules
    rw [RuleSet.applyAfter_cons, RuleSet.applyAfter_cons, hrule.scan_congr hsome hword]
    exact ih hrules _

/-- The text falls into the same pieces before and after, if the rules write no such separator. -/
theorem RuleSet.splitOn_applyAfter {q : Char} (hq : stops q) {before : Option Char}
    (hnew : ∀ other s, q ∉ s → q ∉ rules.applyAfter other s) {s first : Text} {later : List Text}
    (hpieces : s.splitOn q = first :: later) :
    (rules.applyAfter before s).splitOn q =
      rules.applyAfter before first :: later.map (rules.applyAfter (some q)) := by
  induction s using Text.separator_induction (p := (· = q)) generalizing before first later with
  | plain s hs =>
    have hmem : q ∉ s := fun hmem => hs q hmem rfl
    rw [List.splitOn_eq_singleton hmem] at hpieces
    obtain ⟨rfl, rfl⟩ := List.cons.inj hpieces
    exact List.splitOn_eq_singleton (hnew before s hmem)
  | divided u c v hu hc ih =>
    subst hc
    have hmem : c ∉ u := fun hmem => hu c hmem rfl
    have hcut (u v : Text) (hu : c ∉ u) : (u ++ c :: v).splitOn c = u :: v.splitOn c :=
      List.splitOnP_append_cons_of_forall_mem
        (fun d hd => by simpa using fun heq : d = c => hu (heq ▸ hd)) c (by simp) v
    rw [hcut u v hmem] at hpieces
    obtain ⟨rfl, rfl⟩ := List.cons.inj hpieces
    obtain ⟨second, later, hlater⟩ := List.exists_cons_of_ne_nil (List.splitOn_ne_nil c v)
    rw [RuleSet.applyAfter_append hrules hq, hcut _ _ (hnew before u hmem), ih hlater, hlater]
    rfl

/-- A separator in the text after is the separator in the text before at the same place. -/
theorem RuleSet.exists_of_applyAfter_eq {q : Char} (hq : stops q) {before : Option Char}
    (hnew : ∀ other s, q ∉ s → q ∉ rules.applyAfter other s) {s front rest : Text}
    (hsplit : rules.applyAfter before s = front ++ q :: rest) :
    ∃ source sourceRest, s = source ++ q :: sourceRest ∧
      front = rules.applyAfter before source ∧ rest = rules.applyAfter (some q) sourceRest := by
  induction s using Text.separator_induction (p := (· = q)) generalizing before front with
  | plain s hs =>
    refine absurd ?_ (hnew before s fun hmem => hs q hmem rfl)
    simp [hsplit]
  | divided u c v hu hc ih =>
    subst hc
    have hmem := hnew before u fun hmem => hu c hmem rfl
    rw [RuleSet.applyAfter_append hrules hq] at hsplit
    obtain ⟨_ | ⟨d, middle⟩, rfl, hmiddle⟩ | ⟨_ | ⟨d, middle⟩, hfirst, hmiddle⟩ :=
      List.append_eq_append_iff.1 hsplit
    · exact ⟨u, v, rfl, by simp, (List.cons.inj hmiddle).2.symm⟩
    · obtain ⟨rfl, hlater⟩ := List.cons.inj hmiddle
      obtain ⟨source, sourceRest, rfl, rfl, hrest⟩ := ih hlater
      refine ⟨u ++ c :: source, sourceRest, by simp, ?_, hrest⟩
      rw [RuleSet.applyAfter_append hrules hq]
    · exact ⟨u, v, rfl, by simpa using hfirst.symm, (List.cons.inj hmiddle).2⟩
    · obtain ⟨rfl, -⟩ := List.cons.inj hmiddle
      exact absurd (by simp [hfirst]) hmem

end

theorem isLocal_plusMinus : Rule.IsLocal plusMinus IsSeparator where
  fits before s found hfound := by
    unfold plusMinus at hfound
    split at hfound
    · obtain rfl := Option.some.inj hfound
      simp
    · contradiction
  ahead before s q t hq := by
    have hplus : q ≠ '+' := hq.ne_of_mem (by decide)
    have hhyphen : q ≠ '-' := hq.ne_of_mem (by decide)
    obtain _ | ⟨c, s⟩ := s
    · simp [plusMinus, hplus]
    · by_cases hc : c = '+'
      · subst hc
        cases s with
        | nil => simp [plusMinus, hhyphen]
        | cons d s => by_cases hd : d = '-' <;> simp [plusMinus, hd]
      · simp [plusMinus, hc]
  behind before other s _ _ := by
    unfold plusMinus
    split <;> rfl

theorem dash?_append {q : Char} (hq : IsSeparator q) (s t : Text) : dash? (s ++ q :: t) = dash? s := by
  have hhyphen : q ≠ '-' := hq.ne_of_mem (by decide)
  have hdash : q ≠ '—' := hq.ne_of_mem (by decide)
  have hblank := hq.blank
  have hvisible : isBlank '-' = false := by decide
  obtain _ | ⟨a, s⟩ := s
  · simp [dash?, hhyphen, hdash]
  · by_cases ha : a = '-'
    · subst ha
      obtain _ | ⟨b, s⟩ := s
      · simp [dash?, hhyphen, hblank]
      · by_cases hb : b = '-'
        · subst hb
          cases s <;> simp [dash?, hblank, hvisible]
        · simp [dash?, hb]
    · by_cases ha' : a = '—'
      · subst ha'
        cases s <;> simp [dash?, hblank]
      · simp [dash?, ha, ha']

theorem lt_length_of_dash? {s : Text} {width : Nat} {blank : Char}
    (hdash : dash? s = some (width, blank)) : width < s.length := by
  obtain ⟨typed, rest, rfl, rfl, -⟩ := exists_of_dash? hdash
  simp

theorem isLocal_spacedDash : Rule.IsLocal spacedDash IsSeparator where
  fits before s found hfound := by
    unfold spacedDash at hfound
    split at hfound
    · contradiction
    · obtain ⟨⟨width, blank⟩, hdash, rfl⟩ := Option.map_eq_some_iff.1 hfound
      have hwidth := lt_length_of_dash? hdash
      have hlength := congrArg List.length (List.takeWhile_append_dropWhile (p := isBlank) (l := s))
      simp only [List.length_append] at hlength ⊢
      omega
  ahead before s q t hq := by
    have hstop : ∀ c ∈ (q :: t).head?, isBlank c = false := by simpa using hq.blank
    simp only [spacedDash, Text.takeWhile_append_of_head? hstop, Text.dropWhile_append_of_head? hstop,
      dash?_append hq]
  behind _ _ _ _ _ := rfl

theorem isLocal_leadingDash : Rule.IsLocal leadingDash IsSeparator where
  fits before s found hfound := by
    cases before with
    | some c => contradiction
    | none =>
      obtain ⟨⟨width, blank⟩, hdash, rfl⟩ := Option.map_eq_some_iff.1 hfound
      exact lt_length_of_dash? hdash
  ahead before s q t hq := by
    cases before with
    | some c => rfl
    | none => simp only [leadingDash, dash?_append hq]
  behind before other s hsome _ := by
    cases before <;> cases other <;> simp_all [leadingDash]

theorem isLocal_ellipsis : Rule.IsLocal ellipsis IsSeparator where
  fits before s found hfound := by
    unfold ellipsis at hfound
    split at hfound
    · next rest =>
      obtain rfl := Option.some.inj hfound
      have hlength := (List.takeWhile_prefix (l := rest) (· = '.')).length_le
      simp only [List.length_cons]
      omega
    · contradiction
  ahead before s q t hq := by
    have hstop : q ≠ '.' := hq.ne_of_mem (by decide)
    have hrun : ∀ c ∈ (q :: t).head?, decide (c = '.') = false := by simpa using hstop
    obtain _ | ⟨c, s⟩ := s
    · simp [ellipsis, hstop]
    · by_cases hc : c = '.'
      · subst hc
        obtain _ | ⟨d, s⟩ := s
        · simp [ellipsis, hstop]
        · by_cases hd : d = '.'
          · subst hd
            simp [ellipsis, Text.takeWhile_append_of_head? hrun]
          · simp [ellipsis, hd]
      · simp [ellipsis, hc]
  behind before other s _ _ := by
    unfold ellipsis
    split <;> rfl

theorem isLocal_hyphenSpacing : Rule.IsLocal hyphenSpacing IsSeparator where
  fits before s found hfound := by
    unfold hyphenSpacing at hfound
    split at hfound
    · next c s =>
      split at hfound
      · next blank blanks hword hblanks =>
        obtain rfl := Option.some.inj hfound
        have hlength := (List.takeWhile_prefix isBlank (l := s)).length_le
        simp only [hblanks, List.length_cons] at hlength ⊢
        omega
      · contradiction
    · contradiction
  ahead before s q t hq := by
    have hhyphen : q ≠ '-' := hq.ne_of_mem (by decide)
    have hstop : ∀ c ∈ (q :: t).head?, isBlank c = false := by simpa using hq.blank
    obtain _ | ⟨c, _ | ⟨d, s⟩⟩ := s
    · cases t with
      | nil => simp [hyphenSpacing]
      | cons d t => by_cases hd : d = '-' <;> simp [hyphenSpacing, hd, hq.word]
    · simp [hyphenSpacing, hhyphen]
    · by_cases hd : d = '-'
      · subst hd
        simp [hyphenSpacing, Text.takeWhile_append_of_head? hstop]
      · simp [hyphenSpacing, hd]
  behind before other s _ _ := by
    unfold hyphenSpacing
    split <;> rfl

theorem isLocal_digitMinus : Rule.IsLocal digitMinus IsSeparator where
  fits before s found hfound := by
    unfold digitMinus at hfound
    split at hfound
    · split at hfound
      · obtain rfl := Option.some.inj hfound
        simp
      · contradiction
    · contradiction
  ahead before s q t hq := by
    have hhyphen : q ≠ '-' := hq.ne_of_mem (by decide)
    obtain _ | ⟨a, _ | ⟨b, s⟩⟩ := s
    · obtain _ | ⟨b, _ | ⟨c, t⟩⟩ := t
      · simp [digitMinus]
      · simp [digitMinus]
      · by_cases hb : b = '-' <;> simp [digitMinus, hb, hq.decimal]
    · simp [digitMinus, hhyphen]
    · by_cases hb : b = '-'
      · subst hb
        cases s <;> simp [digitMinus, hq.decimal]
      · simp [digitMinus, hb]
  behind before other s _ _ := by
    unfold digitMinus
    split <;> rfl

/-- The rule for a symbol stops at everything outside words that it is not spelled with. -/
theorem isLocal_symbol {spelling : Text} (hnonempty : spelling ≠ []) :
    Rule.IsLocal (symbol spelling) fun q => isWord q = false ∧ q ∉ spelling where
  fits before s found hfound := by
    unfold symbol at hfound
    split at hfound
    · next rest hafter =>
      split at hfound
      · contradiction
      · obtain rfl := Option.some.inj hfound
        obtain rfl := Text.after?_eq_some_iff.1 hafter
        have hlength := List.length_pos_iff.2 hnonempty
        simp only [List.length_append]
        omega
    · contradiction
  ahead before s q t hq := by
    have hkept : ∀ c ∈ spelling, decide (c ≠ q) = true := by
      intro c hc
      simp only [decide_eq_true_eq]
      rintro rfl
      exact hq.2 hc
    have hstop : ∀ c ∈ (q :: t).head?, decide (c ≠ q) = false := by simp
    unfold symbol
    rw [Text.after?_append_of_head? hstop hkept]
    cases hafter : Text.after? spelling s with
    | none => rfl
    | some rest => cases rest <;> simp [hq.1]
  behind before other s _ hword := by
    unfold symbol
    rw [hword]

/-- The rules that stored HTML and inline fragments have in common. -/
def RuleSet.shared : RuleSet := hyphenSpacing :: RuleSet.dialect ++ [digitMinus]

/-- The rules that only stored HTML has. -/
def RuleSet.fractions : RuleSet := symbols.map fun entry => symbol entry.1

theorem RuleSet.html_apply (s : Text) :
    RuleSet.html.apply s = RuleSet.fractions.apply (RuleSet.shared.apply s) := rfl

theorem RuleSet.inline_apply (s : Text) : RuleSet.inline.apply s =
    Rule.apply closingQuote (Rule.apply openingQuote (RuleSet.shared.apply s)) := rfl

theorem isLocal_of_mem_shared {rule : Rule} (hrule : rule ∈ RuleSet.shared) :
    rule.IsLocal IsSeparator := by
  simp only [RuleSet.shared, RuleSet.dialect, List.cons_append, List.nil_append, List.mem_cons,
    List.not_mem_nil, or_false] at hrule
  obtain rfl | rfl | rfl | rfl | rfl | rfl := hrule
  · exact isLocal_hyphenSpacing
  · exact isLocal_plusMinus
  · exact isLocal_spacedDash
  · exact isLocal_leadingDash
  · exact isLocal_ellipsis
  · exact isLocal_digitMinus

theorem isLocal_of_mem_html {rule : Rule} (hrule : rule ∈ RuleSet.html) :
    rule.IsLocal IsSeparator := by
  obtain hshared | hfraction := List.mem_append.1 hrule
  · exact isLocal_of_mem_shared hshared
  · obtain ⟨entry, hentry, rfl⟩ := List.mem_map.1 hfraction
    have hspelled : ∀ entry ∈ symbols, entry.1 ≠ [] ∧
        entry.1.all (fun c => decide (¬ IsSeparator c)) := by decide +kernel
    obtain ⟨hnonempty, hmarks⟩ := hspelled entry hentry
    exact (isLocal_symbol hnonempty).mono fun q hq =>
      ⟨hq.word, fun hmem => Text.forall_of_all hmarks q hmem hq⟩

end PostMarkup.Typography
