import PostMarkup.Proofs.Typography.Signs
import PostMarkup.Proofs.Typography.Silence

namespace PostMarkup

/-- A class of characters that is disjoint from the blanks by its ranges has no blank. -/
theorem contains_of_isBlank {ranges : Ranges}
    (hranges : ∀ range ∈ ranges, ∀ blank ∈ blankRanges, range.2 < blank.1 ∨ blank.2 < range.1)
    {c : Char} (hc : isBlank c) : ranges.contains c.toNat = false := by
  rw [Bool.eq_false_iff]
  intro hfound
  obtain ⟨range, hrange, hlow, hhigh⟩ := Ranges.exists_of_contains hfound
  obtain ⟨blank, hblank, hblankLow, hblankHigh⟩ := Ranges.exists_of_contains hc
  have hdisjoint := hranges range hrange blank hblank
  omega

theorem isWord_of_isBlank {c : Char} (hc : isBlank c) : isWord c = false :=
  contains_of_isBlank (by decide +kernel) hc

theorem isDecimal_of_isBlank {c : Char} (hc : isBlank c) : isDecimal c = false :=
  contains_of_isBlank (by decide) hc

namespace Typography

/-- A text that the last rules for stored HTML pass over: it begins outside words and ends there, and
    has no digits. -/
structure IsInert (written : Text) : Prop where
  head : written.head? = some '&'
  last : written.getLast?.any isWord = false
  decimal : ∀ c ∈ written, isDecimal c = false

theorem SetSign.isInert {covered written : Text} (h : SetSign covered written) :
    IsInert written := by
  obtain ⟨names, blanks, hnonempty, hnames, -, hblanks, rfl⟩ := h.writes
  constructor
  · cases names with
    | nil => contradiction
    | cons name names => simp [reference]
  · rw [List.getLast?_append, getLast?_flatMap_reference hnonempty]
    cases hlast : blanks.getLast? with
    | none =>
      have hsemicolon : isWord ';' = false := by decide
      simpa using hsemicolon
    | some c => simpa using isWord_of_isBlank (hblanks c (List.mem_of_getLast? hlast))
  · have hall : dialectNames.all (fun name => (reference name).all fun c => !isDecimal c) = true := by
      decide
    intro c hc
    obtain hc | hc := List.mem_append.1 hc
    · obtain ⟨name, hname, hc⟩ := List.mem_flatMap.1 hc
      simpa using List.all_eq_true.1 (List.all_eq_true.1 hall name (hnames hname)) c hc
    · exact isDecimal_of_isBlank (hblanks c hc)

theorem SetSign.isWord_eq_false {covered written : Text} (h : SetSign covered written) :
    ∀ c ∈ covered, isWord c = false := by
  have htyped : typedSigns.all (fun c => !isWord c) = true := by decide +kernel
  intro c hc
  obtain hblank | hmem := h.covers c hc
  · exact isWord_of_isBlank hblank
  · simpa using List.all_eq_true.1 htyped c hmem

/-- The second text is the first with inert text in the place of stretches outside words. -/
inductive Typeset : Text → Text → Prop
  | nil : Typeset [] []
  | keep (c : Char) {s t : Text} (h : Typeset s t) : Typeset (c :: s) (c :: t)
  | sign {covered written s t : Text} (hcovered : covered ≠ [])
      (hoff : ∀ c ∈ covered, isWord c = false) (hwritten : IsInert written) (h : Typeset s t) :
      Typeset (covered ++ s) (written ++ t)

/-- What begins with anything but an ampersand is kept. -/
theorem Typeset.exists_of_cons {s t whole : Text} {c : Char} (h : Typeset s whole)
    (hwhole : whole = c :: t) (hc : c ≠ '&') : ∃ rest, s = c :: rest ∧ Typeset rest t := by
  cases h with
  | nil => contradiction
  | keep d h =>
    obtain ⟨rfl, rfl⟩ := List.cons.inj hwhole
    exact ⟨_, rfl, h⟩
  | sign hcovered hoff hwritten h =>
    obtain ⟨written, rfl⟩ := List.head?_eq_some_iff.1 hwritten.head
    exact absurd (List.cons.inj hwhole).1.symm hc

theorem Typeset.exists_of_append {s kept t : Text} (hkept : '&' ∉ kept)
    (h : Typeset s (kept ++ t)) : ∃ rest, s = kept ++ rest ∧ Typeset rest t := by
  induction kept generalizing s with
  | nil => exact ⟨s, rfl, h⟩
  | cons c kept ih =>
    have hc : c ≠ '&' := fun heq => hkept (by simp [heq])
    obtain ⟨tail, rfl, htail⟩ := h.exists_of_cons rfl hc
    obtain ⟨rest, rfl, hrest⟩ := ih (fun hmem => hkept (by simp [hmem])) htail
    exact ⟨rest, rfl, hrest⟩

/-- A word begins in one of the texts where it begins in the other. -/
theorem Typeset.any_head? {s t : Text} (h : Typeset s t) :
    s.head?.any isWord = t.head?.any isWord := by
  cases h with
  | nil => rfl
  | keep c h => rfl
  | @sign covered written s t hcovered hoff hwritten h =>
    have hampersand : isWord '&' = false := by decide
    obtain ⟨written, rfl⟩ := List.head?_eq_some_iff.1 hwritten.head
    obtain ⟨c, covered, rfl⟩ := List.exists_cons_of_ne_nil hcovered
    simp [hampersand, hoff c (by simp)]

/-- The scan of a rule of the dialect sets signs in what the last match leaves. -/
theorem typeset_scan {rule : Rule} (hrule : rule ∈ RuleSet.dialect) (before : Option Char)
    (covered : Nat) (s : Text) : Typeset (s.drop covered) (rule.scan before covered s) := by
  induction s generalizing before covered with
  | nil =>
    rw [List.drop_nil, Rule.scan]
    exact .nil
  | cons c s ih =>
    cases covered with
    | succ covered =>
      rw [List.drop_succ_cons, Rule.scan]
      exact ih _ _
    | zero =>
      rw [List.drop_zero, Rule.scan]
      split
      · next found hfound =>
        have hsign := setSign_of_mem_dialect hrule hfound
        rw [← List.take_append_drop (found.more + 1) (c :: s), List.drop_succ_cons]
        exact .sign (by simp) hsign.isWord_eq_false hsign.isInert (ih _ _)
      · exact .keep c (by simpa using ih (some c) 0)

/-- What follows a stretch outside words is silent with a character outside words before it. -/
theorem Rule.IsSilent.exists_of_append {rule : Rule} {covered s : Text} (hcovered : covered ≠ [])
    (hoff : ∀ c ∈ covered, isWord c = false) {before : Option Char}
    (h : rule.IsSilent before (covered ++ s)) :
    ∃ last : Option Char, last.any isWord = false ∧ rule.IsSilent last s := by
  induction covered generalizing before with
  | nil => contradiction
  | cons c covered ih =>
    obtain ⟨hc, hoff⟩ := List.forall_mem_cons.1 hoff
    cases covered with
    | nil => exact ⟨some c, by simpa using hc, h.2⟩
    | cons d covered => exact ih (by simp) hoff h.2

/-- A rule that begins at digits only, and sees no difference between a text and the same with signs
    set in it. -/
structure Rule.IgnoresSigns (rule : Rule) : Prop where
  begins : ∀ before c s, isDecimal c = false → rule before (c :: s) = none
  agrees : ∀ before other c s t, before.any isWord = other.any isWord → Typeset s t →
    rule before (c :: s) = none → rule other (c :: t) = none

section

variable {rule : Rule} (hrule : rule.IgnoresSigns)

include hrule

/-- Inert text brings no match about and ends outside words. -/
theorem Rule.IgnoresSigns.isSilent_append {written t : Text} (hwritten : written ≠ [])
    (hlast : written.getLast?.any isWord = false) (hdecimal : ∀ c ∈ written, isDecimal c = false)
    (ht : ∀ other : Option Char, other.any isWord = false → rule.IsSilent other t)
    (before : Option Char) : rule.IsSilent before (written ++ t) := by
  induction written generalizing before with
  | nil => contradiction
  | cons c written ih =>
    obtain ⟨hc, hdecimal⟩ := List.forall_mem_cons.1 hdecimal
    refine ⟨Option.isNone_iff_eq_none.2 (hrule.begins before c _ hc), ?_⟩
    cases written with
    | nil => exact ht (some c) (by simpa using hlast)
    | cons d written =>
      rw [List.getLast?_cons_cons] at hlast
      exact ih (by simp) hlast hdecimal (some c)

/-- Where such a rule finds nothing, it finds nothing after signs are set. -/
theorem Rule.IgnoresSigns.isSilent {s t : Text} (h : Typeset s t) {before other : Option Char}
    (hbefore : before.any isWord = other.any isWord) (hsilent : rule.IsSilent before s) :
    rule.IsSilent other t := by
  induction h generalizing before other with
  | nil => exact trivial
  | @keep c s t h ih =>
    obtain ⟨hnone, hlater⟩ := hsilent
    rw [Option.isNone_iff_eq_none] at hnone
    refine ⟨?_, ih rfl hlater⟩
    rw [hrule.agrees before other c s t hbefore h hnone]
    rfl
  | @sign covered written s t hcovered hoff hwritten h ih =>
    obtain ⟨last, hlast, hlater⟩ := Rule.IsSilent.exists_of_append hcovered hoff hsilent
    have hnonempty : written ≠ [] := by
      rintro rfl
      exact absurd hwritten.head (by simp)
    refine hrule.isSilent_append hnonempty hwritten.last hwritten.decimal (fun next hnext => ?_) other
    exact ih (hlast.trans hnext.symm) hlater

/-- So the rules of the dialect may run before it. -/
theorem Rule.IgnoresSigns.isSilent_apply {rules : RuleSet} (hrules : rules ⊆ RuleSet.dialect)
    {s : Text} (hsilent : rule.IsSilent none s) : rule.IsSilent none (rules.apply s) := by
  induction rules generalizing s with
  | nil => exact hsilent
  | cons first rules ih =>
    obtain ⟨hfirst, hrules⟩ := List.cons_subset.1 hrules
    exact ih hrules (hrule.isSilent (typeset_scan hfirst none 0 s) rfl hsilent)

end

theorem ignoresSigns_digitMinus : Rule.IgnoresSigns digitMinus where
  begins before c s hc := by
    unfold digitMinus
    split
    · next a b rest heq =>
      obtain ⟨rfl, -⟩ := List.cons.inj heq
      simp [hc]
    · rfl
  agrees before other c s t _hbefore h hnone := by
    unfold digitMinus
    split
    · next a b rest heq =>
      obtain ⟨rfl, rfl⟩ := List.cons.inj heq
      refine if_neg fun hdigits => ?_
      have hkept : '&' ∉ ['-', b] := by
        have hampersand : isDecimal '&' = false := by decide
        simp only [List.mem_cons, List.not_mem_nil, or_false, not_or]
        refine ⟨by decide, ?_⟩
        rintro rfl
        simp [hampersand] at hdigits
      obtain ⟨rest, rfl, -⟩ := h.exists_of_append hkept
      simp [digitMinus, hdigits] at hnone
    · rfl

theorem ignoresSigns_symbol {spelling : Text} (hhead : spelling.head?.any isDecimal)
    (hampersand : '&' ∉ spelling) : Rule.IgnoresSigns (symbol spelling) := by
  obtain _ | ⟨digit, spelling⟩ := spelling
  · contradiction
  constructor
  · intro before c s hc
    unfold symbol
    split
    · next rest hrest =>
      obtain ⟨rfl, -⟩ := List.cons.inj (Text.after?_eq_some_iff.1 hrest)
      simp [hc] at hhead
    · rfl
  · intro before other c s t hbefore h hnone
    unfold symbol
    split
    · next rest hrest =>
      obtain ⟨rfl, rfl⟩ := List.cons.inj (Text.after?_eq_some_iff.1 hrest)
      obtain ⟨sourceRest, rfl, hsource⟩ :=
        h.exists_of_append fun hmem => hampersand (List.mem_cons_of_mem _ hmem)
      have hafter : Text.after? (c :: spelling) (c :: (spelling ++ sourceRest)) = some sourceRest :=
        Text.after?_eq_some_iff.2 rfl
      simp only [symbol, hafter, hbefore, hsource.any_head?] at hnone
      exact hnone
    · rfl

/-- A text in which the two rule sets have nothing to disagree about: no hyphen stands between a word
    and a blank or between two digits, and no fraction stands by itself. -/
structure Undisputed (s : Text) : Prop where
  hyphen : ∀ front w b rest, s = front ++ w :: '-' :: b :: rest → ¬ (isWord w ∧ isBlank b)
  minus : ∀ front a b rest, s = front ++ a :: '-' :: b :: rest → ¬ (isDecimal a ∧ isDecimal b)
  fraction : ∀ entry ∈ symbols, ∀ front rest, s = front ++ entry.1 ++ rest →
    front.getLast?.any isWord ∨ rest.head?.any isWord

theorem Rule.isSilent_iff {rule : Rule} {before : Option Char} {s : Text} :
    rule.IsSilent before s ↔ ∀ front c rest, s = front ++ c :: rest →
      rule (front.getLast?.or before) (c :: rest) = none := by
  induction s generalizing before with
  | nil => simp [IsSilent]
  | cons d s ih =>
    rw [IsSilent, ih, Option.isNone_iff_eq_none]
    constructor
    · rintro ⟨hnone, hlater⟩ (_ | ⟨e, front⟩) c rest heq
      · obtain ⟨rfl, rfl⟩ := List.cons.inj heq
        exact hnone
      · obtain ⟨rfl, rfl⟩ := List.cons.inj heq
        have hnone := hlater front c rest rfl
        cases hfront : front.getLast? <;> simp_all [List.getLast?_cons]
    · intro hall
      refine ⟨hall [] d s rfl, fun front c rest heq => ?_⟩
      have hnone := hall (d :: front) c rest (by rw [heq, List.cons_append])
      cases hfront : front.getLast? <;> simp_all [List.getLast?_cons]

theorem isSilent_hyphenSpacing_iff {s : Text} : hyphenSpacing.IsSilent none s ↔
    ∀ front w b rest, s = front ++ w :: '-' :: b :: rest → ¬ (isWord w ∧ isBlank b) := by
  rw [Rule.isSilent_iff]
  constructor
  · rintro hall front w b rest rfl ⟨hw, hb⟩
    have hnone := hall front w _ rfl
    simp [hyphenSpacing, hw, hb] at hnone
  · rintro hall front c rest rfl
    unfold hyphenSpacing
    split
    · next c rest heq =>
      obtain ⟨rfl, rfl⟩ := List.cons.inj heq
      split
      · next blank blanks hw hblanks =>
        obtain _ | ⟨b, rest⟩ := rest
        · contradiction
        · rw [List.takeWhile_cons] at hblanks
          split at hblanks
          · next hb => exact absurd ⟨hw, hb⟩ (hall front c b rest rfl)
          · contradiction
      · rfl
    · rfl

theorem isSilent_digitMinus_iff {s : Text} : digitMinus.IsSilent none s ↔
    ∀ front a b rest, s = front ++ a :: '-' :: b :: rest → ¬ (isDecimal a ∧ isDecimal b) := by
  rw [Rule.isSilent_iff]
  constructor
  · rintro hall front a b rest rfl ⟨ha, hb⟩
    have hnone := hall front a _ rfl
    simp [digitMinus, ha, hb] at hnone
  · rintro hall front c rest rfl
    unfold digitMinus
    split
    · next a b rest heq =>
      obtain ⟨rfl, rfl⟩ := List.cons.inj heq
      have hnot := hall front c b rest rfl
      rw [← Bool.and_eq_true] at hnot
      exact if_neg hnot
    · rfl

theorem isSilent_symbol_iff {spelling s : Text} (hspelling : spelling ≠ []) :
    (symbol spelling).IsSilent none s ↔ ∀ front rest, s = front ++ spelling ++ rest →
      front.getLast?.any isWord ∨ rest.head?.any isWord := by
  obtain ⟨d, spelling, rfl⟩ := List.exists_cons_of_ne_nil hspelling
  rw [Rule.isSilent_iff]
  constructor
  · rintro hall front rest rfl
    have hnone := hall front d (spelling ++ rest) (by simp)
    have hafter : Text.after? (d :: spelling) (d :: (spelling ++ rest)) = some rest :=
      Text.after?_eq_some_iff.2 rfl
    simp only [symbol, hafter, Option.or_none] at hnone
    split at hnone
    · next hword => simpa using hword
    · contradiction
  · rintro hall front c rest rfl
    unfold symbol
    split
    · next tail htail =>
      have hsource := Text.after?_eq_some_iff.1 htail
      have hword := hall front tail (by rw [hsource, List.append_assoc])
      rw [← Bool.or_eq_true] at hword
      rw [Option.or_none]
      exact if_pos hword
    · rfl

theorem undisputed_iff {s : Text} : Undisputed s ↔ hyphenSpacing.IsSilent none s ∧
    digitMinus.IsSilent none s ∧ ∀ entry ∈ symbols, (symbol entry.1).IsSilent none s := by
  have hspelling : ∀ entry ∈ symbols, entry.1 ≠ [] := by decide
  rw [isSilent_hyphenSpacing_iff, isSilent_digitMinus_iff]
  constructor
  · rintro ⟨hhyphen, hminus, hfraction⟩
    exact ⟨hhyphen, hminus, fun entry hentry =>
      (isSilent_symbol_iff (hspelling entry hentry)).2 (hfraction entry hentry)⟩
  · rintro ⟨hhyphen, hminus, hfraction⟩
    exact ⟨hhyphen, hminus, fun entry hentry =>
      (isSilent_symbol_iff (hspelling entry hentry)).1 (hfraction entry hentry)⟩

instance : DecidablePred Undisputed := fun _ => decidable_of_iff' _ undisputed_iff

/-- Both sets typograph undisputed text alike. -/
theorem html_apply_eq_dialect_apply {s : Text} (h : Undisputed s) :
    RuleSet.html.apply s = RuleSet.dialect.apply s := by
  obtain ⟨hhyphen, hminus, hfraction⟩ := undisputed_iff.1 h
  have hsymbols : ∀ entry ∈ symbols, Rule.IgnoresSigns (symbol entry.1) := by
    have hspelled : ∀ entry ∈ symbols, entry.1.head?.any isDecimal ∧ '&' ∉ entry.1 := by decide
    exact fun entry hentry =>
      ignoresSigns_symbol (hspelled entry hentry).1 (hspelled entry hentry).2
  have hfirst : hyphenSpacing.apply s = s := Rule.scan_of_isSilent hhyphen
  have hlast : RuleSet.apply (digitMinus :: symbols.map fun entry => symbol entry.1)
      (RuleSet.dialect.apply s) = RuleSet.dialect.apply s := by
    refine RuleSet.apply_of_isSilent (List.forall_mem_cons.2 ⟨?_, fun rule hrule => ?_⟩)
    · exact ignoresSigns_digitMinus.isSilent_apply (List.Subset.refl _) hminus
    · obtain ⟨entry, hentry, rfl⟩ := List.mem_map.1 hrule
      exact (hsymbols entry hentry).isSilent_apply (List.Subset.refl _) (hfraction entry hentry)
  calc RuleSet.html.apply s
    _ = RuleSet.apply (digitMinus :: symbols.map fun entry => symbol entry.1)
        (RuleSet.dialect.apply (hyphenSpacing.apply s)) := rfl
    _ = RuleSet.dialect.apply s := by rw [hfirst, hlast]

end Typography

end PostMarkup
