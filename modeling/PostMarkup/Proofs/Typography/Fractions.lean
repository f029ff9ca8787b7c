import PostMarkup.Proofs.Typography.Replacement
import PostMarkup.Proofs.Typography.Silence

namespace PostMarkup.Typography

/-- A symbol stands at the head of a text, and no word goes on after it. -/
def StandsAt (spelling s : Text) : Prop :=
  ∃ rest, s = spelling ++ rest ∧ rest.head?.any isWord = false

theorem isSome_symbol_iff {spelling : Text} {before : Option Char}
    (hbefore : before.any isWord = false) {s : Text} :
    (symbol spelling before s).isSome ↔ StandsAt spelling s := by
  unfold symbol StandsAt
  constructor
  · intro hsome
    split at hsome
    · next rest hafter =>
      refine ⟨rest, Text.after?_eq_some_iff.1 hafter, ?_⟩
      split at hsome
      · contradiction
      · next hword => simpa [hbefore] using hword
    · contradiction
  · rintro ⟨rest, rfl, hrest⟩
    rw [Text.after?_append]
    simp [hbefore, hrest]

theorem exists_of_symbol {spelling s : Text} {before : Option Char} {found : Match}
    (hfound : symbol spelling before s = some found) :
    ∃ rest, s = spelling ++ rest ∧ before.any isWord = false ∧ rest.head?.any isWord = false ∧
      found = ⟨reference spelling, spelling.length - 1⟩ := by
  unfold symbol at hfound
  split at hfound
  · next rest hafter =>
    split at hfound
    · contradiction
    · next hword =>
      rw [Bool.not_eq_true, Bool.or_eq_false_iff] at hword
      obtain rfl := Option.some.inj hfound
      exact ⟨rest, Text.after?_eq_some_iff.1 hafter, hword.1, hword.2, rfl⟩
  · contradiction

theorem written_of_symbol {spelling s : Text} {before : Option Char} {found : Match}
    (hfound : symbol spelling before s = some found) : found.written = reference spelling := by
  obtain ⟨rest, -, -, -, rfl⟩ := exists_of_symbol hfound
  rfl

instance (spelling : Text) : DecidablePred (StandsAt spelling) := fun s =>
  decidable_of_iff (symbol spelling none s).isSome (isSome_symbol_iff rfl)

/-- One of the symbols stands there. -/
def FractionAt (s : Text) : Prop := ∃ entry ∈ symbols, StandsAt entry.1 s

instance : DecidablePred FractionAt := fun s =>
  inferInstanceAs (Decidable (∃ entry ∈ symbols, StandsAt entry.1 s))

/-- The symbols are fractions: a digit, a slash and a digit that no other begins with. -/
theorem exists_of_mem_symbols {entry : Text × Text} (hentry : entry ∈ symbols) :
    ∃ n d, entry.1 = [n, '/', d] ∧ (n = '1' ∨ n = '3') ∧ (d = '2' ∨ d = '4') := by
  simp only [symbols, List.mem_cons, List.not_mem_nil, or_false] at hentry
  obtain rfl | rfl | rfl := hentry
  · exact ⟨'1', '2', rfl, .inl rfl, .inl rfl⟩
  · exact ⟨'1', '4', rfl, .inl rfl, .inr rfl⟩
  · exact ⟨'3', '4', rfl, .inr rfl, .inr rfl⟩

/-- A stretch that no fraction goes into: it begins outside words and has neither digits nor slash. -/
structure IsMark (s : Text) : Prop where
  nonempty : s ≠ []
  head : s.head?.any isWord = false
  decimal : ∀ c ∈ s, isDecimal c = false
  slash : '/' ∉ s

section

variable {replaces : Text → Text → Prop} (hmarks : ∀ u v, replaces u v → IsMark u ∧ IsMark v)
  {s t : Text}

include hmarks

theorem Replaced.any_head?_of_marks (h : Replaced replaces s t) :
    t.head?.any isWord = s.head?.any isWord := by
  cases h with
  | nil => rfl
  | keep c h => rfl
  | @stretch covered written s t hreplaces h =>
    obtain ⟨hcovered, hwritten⟩ := hmarks _ _ hreplaces
    obtain ⟨c, covered, rfl⟩ := List.exists_cons_of_ne_nil hcovered.nonempty
    obtain ⟨d, written, rfl⟩ := List.exists_cons_of_ne_nil hwritten.nonempty
    exact hwritten.head.trans hcovered.head.symm

theorem Replaced.fractionAt (h : Replaced replaces s t) (hs : FractionAt s) : FractionAt t := by
  obtain ⟨entry, hentry, rest, rfl, hrest⟩ := hs
  have hspelled : ∀ c ∈ entry.1, isDecimal c ∨ c = '/' := by
    have hall : ∀ entry ∈ symbols, entry.1.all fun c => decide (isDecimal c ∨ c = '/') := by decide
    exact Text.forall_of_all (hall entry hentry)
  have hkept : ∀ u v, replaces u v → ∀ c ∈ entry.1, c ∉ u := by
    intro u v huv c hc hmem
    obtain hdecimal | rfl := hspelled c hc
    · simp [(hmarks u v huv).1.decimal c hmem] at hdecimal
    · exact (hmarks u v huv).1.slash hmem
  obtain ⟨rest', rfl, hafter⟩ :=
    h.exists_of_append (fun u v huv => (hmarks u v huv).1.nonempty) hkept
  exact ⟨entry, hentry, rest', rfl, (hafter.any_head?_of_marks hmarks).trans hrest⟩

theorem Replaced.fractionAt_iff (h : Replaced replaces s t) : FractionAt t ↔ FractionAt s :=
  ⟨h.symm.fractionAt fun u v huv => (hmarks v u huv).symm, h.fractionAt hmarks⟩

end

/-- A symbol and a word before it do not touch, so the rule leaves the head of the rest. -/
theorem head?_scan_symbol_of_isWord {c : Char} (hc : isWord c) (spelling s : Text) :
    ((symbol spelling).scan (some c) 0 s).head? = s.head? := by
  cases s with
  | nil => rfl
  | cons d s =>
    have hnone : symbol spelling (some c) (d :: s) = none := by
      unfold symbol
      split
      · simp [hc]
      · rfl
    rw [Rule.scan, hnone]
    rfl

theorem scan_symbol_cons_of_ne {spelling : Text} {c : Char} (hc : ∀ d ∈ spelling.head?, d ≠ c)
    (hnonempty : spelling ≠ []) (before : Option Char) (s : Text) :
    (symbol spelling).scan before 0 (c :: s) = c :: (symbol spelling).scan (some c) 0 s := by
  have hnone : symbol spelling before (c :: s) = none := by
    obtain ⟨d, spelling, rfl⟩ := List.exists_cons_of_ne_nil hnonempty
    simp [symbol, Text.after?, hc d rfl]
  rw [Rule.scan, hnone]

theorem writesReferences_symbol (spelling : Text) : (symbol spelling).WritesReferences := by
  intro before s found hfound
  rw [written_of_symbol hfound]
  rfl

theorem standsAt_cons_iff {n d c : Char} {s : Text} : StandsAt [n, '/', d] (c :: s) ↔
    c = n ∧ ∃ rest, s = '/' :: d :: rest ∧ rest.head?.any isWord = false := by
  simp [StandsAt, and_assoc]

/-- Past the head of a text, the rule for a symbol neither makes a symbol nor breaks one. -/
theorem standsAt_scan_symbol_iff {entry other : Text × Text} (hentry : entry ∈ symbols)
    (hother : other ∈ symbols) (c : Char) (s : Text) :
    StandsAt other.1 (c :: (symbol entry.1).scan (some c) 0 s) ↔ StandsAt other.1 (c :: s) := by
  obtain ⟨n, d, hspelling, -, hd⟩ := exists_of_mem_symbols hother
  obtain ⟨n', d', hspelling', hn', -⟩ := exists_of_mem_symbols hentry
  have hword : isWord d ∧ d ≠ '&' := by
    obtain rfl | rfl := hd <;> decide
  have hslash : ∀ e ∈ [n', '/', d'].head?, e ≠ '/' := by
    obtain rfl | rfl := hn' <;> simp
  have hdigit : ∀ e ∈ [n', '/', d'].head?, e ≠ d := by
    obtain rfl | rfl := hn' <;> obtain rfl | rfl := hd <;> simp
  rw [hspelling, hspelling', standsAt_cons_iff, standsAt_cons_iff]
  refine and_congr_right fun _ => ⟨?_, ?_⟩
  · rintro ⟨rest, hs, hrest⟩
    have hwrites := writesReferences_symbol [n', '/', d']
    obtain ⟨s, rfl, -, htail⟩ := hwrites.exists_of_scan_eq_cons (by decide) hs
    obtain ⟨s, rfl, -, rfl⟩ := hwrites.exists_of_scan_eq_cons hword.2 htail.symm
    rw [head?_scan_symbol_of_isWord hword.1] at hrest
    exact ⟨s, rfl, hrest⟩
  · rintro ⟨rest, rfl, hrest⟩
    refine ⟨(symbol [n', '/', d']).scan (some d) 0 rest, ?_, ?_⟩
    · rw [scan_symbol_cons_of_ne hslash (by simp), scan_symbol_cons_of_ne hdigit (by simp)]
    · rwa [head?_scan_symbol_of_isWord hword.1]

/-- The rules for symbols, at the head of a text with no word before it, set one of them or leave the
    character there. -/
theorem head?_applyAfter_symbols {entries : List (Text × Text)} (hentries : entries ⊆ symbols)
    {before : Option Char} (hbefore : before.any isWord = false) (c : Char) (s : Text) :
    (RuleSet.applyAfter before (entries.map fun entry => symbol entry.1) (c :: s)).head? =
      if ∃ entry ∈ entries, StandsAt entry.1 (c :: s) then some '&' else some c := by
  induction entries generalizing c s with
  | nil => simp [RuleSet.applyAfter]
  | cons entry entries ih =>
    obtain ⟨hentry, hentries⟩ := List.cons_subset.1 hentries
    rw [List.map_cons, RuleSet.applyAfter_cons, Rule.scan]
    by_cases hstands : StandsAt entry.1 (c :: s)
    · obtain ⟨found, hfound⟩ := Option.isSome_iff_exists.1 ((isSome_symbol_iff hbefore).2 hstands)
      rw [hfound, if_pos ⟨entry, by simp, hstands⟩]
      simp only [written_of_symbol hfound, reference, List.cons_append]
      rw [ih hentries]
      split <;> rfl
    · have hnone : symbol entry.1 before (c :: s) = none := by
        rw [← isSome_symbol_iff hbefore] at hstands
        simpa using hstands
      have hlater : (∃ other ∈ entries,
            StandsAt other.1 (c :: (symbol entry.1).scan (some c) 0 s)) ↔
          ∃ other ∈ entry :: entries, StandsAt other.1 (c :: s) := by
        simp only [List.mem_cons, exists_eq_or_imp, hstands, false_or]
        exact exists_congr fun other => and_congr_right fun hother =>
          standsAt_scan_symbol_iff hentry (hentries hother) c s
      rw [hnone, ih hentries]
      simp only [hlater]

theorem isWord_of_standsAt {entry : Text × Text} (hentry : entry ∈ symbols) {c : Char} {s : Text}
    (hstands : StandsAt entry.1 (c :: s)) : isWord c := by
  obtain ⟨n, d, hspelling, hn, -⟩ := exists_of_mem_symbols hentry
  rw [hspelling, standsAt_cons_iff] at hstands
  rw [hstands.1]
  obtain rfl | rfl := hn <;> decide

/-- No symbol stands in the reference for one. -/
theorem isSilent_reference_append {entry other : Text × Text} (hentry : entry ∈ symbols)
    (hother : other ∈ symbols) (before : Option Char) {s : Text}
    (hs : (symbol other.1).IsSilent (some ';') s) :
    (symbol other.1).IsSilent before (reference entry.1 ++ s) := by
  simp only [symbols, List.mem_cons, List.not_mem_nil, or_false] at hentry hother
  obtain rfl | rfl | rfl := hentry <;> obtain rfl | rfl | rfl := hother <;>
    exact ⟨rfl, rfl, rfl, rfl, rfl, rfl, rfl, rfl, hs⟩

/-- A scan for one symbol leaves none of these behind, and none of another kind where there was none.
    The text that is written may have another character before a place than the scanned one had, but
    then no word begins there. -/
theorem isSilent_scan_symbol {entry other : Text × Text} (hentry : entry ∈ symbols)
    (hother : other ∈ symbols) {before last : Option Char} {covered : Nat} {s : Text}
    (hsource : other = entry ∨ (symbol other.1).IsSilent before s)
    (hlast : (covered = 0 ∧ before.any isWord = last.any isWord) ∨
      (s.drop covered).head?.any isWord = false) :
    (symbol other.1).IsSilent last ((symbol entry.1).scan before covered s) := by
  induction s generalizing before last covered with
  | nil => exact trivial
  | cons c s ih =>
    have hlater : other = entry ∨ (symbol other.1).IsSilent (some c) s := hsource.imp_right And.right
    cases covered with
    | succ covered =>
      have hhead := hlast.resolve_left fun h => Nat.succ_ne_zero covered h.1
      exact ih hlater (.inr hhead)
    | zero =>
      rw [Rule.scan]
      split
      · next found hfound =>
        obtain ⟨rest, hs, -, hrest, rfl⟩ := exists_of_symbol hfound
        have hdrop : s.drop (entry.1.length - 1) = rest := by
          obtain ⟨n, d, hspelling, -⟩ := exists_of_mem_symbols hentry
          rw [hspelling] at hs ⊢
          rw [(List.cons.inj hs).2]
          rfl
        exact isSilent_reference_append hentry hother last (ih hlater (.inr (hdrop ▸ hrest)))
      · next hnone =>
        refine ⟨?_, ih hlater (.inl ⟨rfl, rfl⟩)⟩
        rw [Option.isNone_iff_eq_none]
        refine Option.eq_none_iff_forall_ne_some.2 fun found hfound => ?_
        -- A symbol that is left here was here, with no word before it.
        obtain ⟨rest, hwritten, hword, hrest, -⟩ := exists_of_symbol hfound
        have hstands : StandsAt other.1 (c :: s) :=
          (standsAt_scan_symbol_iff hentry hother c s).1 ⟨rest, hwritten, hrest⟩
        have hbefore : before.any isWord = false := by
          obtain ⟨-, hsame⟩ | hhead := hlast
          · exact hsame.trans hword
          · simp [isWord_of_standsAt hother hstands] at hhead
        have hsome := (isSome_symbol_iff hbefore).2 hstands
        obtain rfl | hsilent := hsource
        · simp [hnone] at hsome
        · simp [Option.isNone_iff_eq_none.1 hsilent.1] at hsome

/-- The rules for symbols leave none of theirs where a word neither ends before it nor goes on after
    it. -/
theorem isSilent_apply_symbols {entries : List (Text × Text)} (hentries : entries ⊆ symbols)
    {other : Text × Text} (hother : other ∈ symbols) {s : Text}
    (hsource : other ∈ entries ∨ (symbol other.1).IsSilent none s) :
    (symbol other.1).IsSilent none
      (RuleSet.apply (entries.map fun entry => symbol entry.1) s) := by
  induction entries generalizing s with
  | nil => exact hsource.resolve_left (List.not_mem_nil)
  | cons entry entries ih =>
    obtain ⟨hentry, hentries⟩ := List.cons_subset.1 hentries
    refine ih hentries ?_
    rw [List.mem_cons, or_assoc, or_left_comm] at hsource
    exact hsource.imp_right fun hsource =>
      isSilent_scan_symbol hentry hother hsource (.inl ⟨rfl, rfl⟩)

end PostMarkup.Typography
