import PostMarkup.Proofs.Reference.Extent
import PostMarkup.Proofs.Typography.Alphabet

namespace PostMarkup.Typography

open Reference

/-- An ampersand, or a character that a reference can have after it. -/
def ofReference (c : Char) : Bool := c = '&' || isReferenceCharacter c

/-- A rule that begins at no character of a reference and covers no ampersand. What it writes is in
    order. -/
structure Rule.KeepsReferences (rule : Rule) : Prop where
  silent : ∀ before c s, ofReference c → rule before (c :: s) = none
  covers : ∀ before s found, rule before s = some found → '&' ∉ s.take (found.more + 1)
  writes : ∀ before s found, rule before s = some found → InOrder s → InOrder found.written

theorem Rule.KeepsReferences.scan_append {rule : Rule} (hrule : rule.KeepsReferences) {taken : Text}
    (htaken : ∀ c ∈ taken, ofReference c) (before : Option Char) (s : Text) :
    ∃ last, rule.scan before 0 (taken ++ s) = taken ++ rule.scan last 0 s := by
  induction taken generalizing before with
  | nil => exact ⟨before, rfl⟩
  | cons c taken ih =>
    obtain ⟨hc, htaken⟩ := List.forall_mem_cons.1 htaken
    obtain ⟨last, hlater⟩ := ih htaken (some c)
    refine ⟨last, ?_⟩
    rw [List.cons_append, Rule.scan, hrule.silent before c _ hc, hlater]
    rfl

/-- A match that is still open covers no ampersand, so it ends between two pieces of the text. -/
theorem Rule.KeepsReferences.scan {rule : Rule} (hrule : rule.KeepsReferences) {s : Text}
    (hs : InOrder s) (before : Option Char) {covered : Nat} (hcovered : '&' ∉ s.take covered) :
    InOrder (rule.scan before covered s) := by
  induction hs generalizing before covered with
  | nil =>
    rw [Rule.scan]
    exact .nil
  | @character c s hc hs ih =>
    cases covered with
    | succ covered =>
      rw [Rule.scan]
      exact ih _ fun hmem => hcovered (by simp [hmem])
    | zero =>
      rw [Rule.scan]
      split
      · next found hfound =>
        have hwritten := hrule.writes _ _ _ hfound (.character hc hs)
        have hcover := hrule.covers _ _ _ hfound
        exact hwritten.append (ih _ fun hmem => hcover (by simp [hmem]))
      · exact .character hc (ih _ (by simp))
  | @reference name text s hname hnamed hs ih =>
    obtain rfl : covered = 0 := by
      by_contra hpositive
      obtain ⟨covered, rfl⟩ := Nat.exists_eq_succ_of_ne_zero hpositive
      exact hcovered (by simp)
    have htaken : ∀ c ∈ '&' :: name ++ [';'], ofReference c := by
      intro c hc
      simp only [List.cons_append, List.mem_cons, List.mem_append, List.not_mem_nil, or_false] at hc
      obtain rfl | hc | rfl := hc
      · rfl
      · simp [ofReference, isReferenceCharacter_of_isAlphanum (hname c hc)]
      · rfl
    obtain ⟨last, hscan⟩ := hrule.scan_append htaken before s
    simp only [List.cons_append, List.append_assoc, List.nil_append] at hscan
    rw [hscan]
    exact .reference hname hnamed (ih last (by simp))

theorem RuleSet.inOrder_apply {rules : RuleSet} (hrules : ∀ rule ∈ rules, rule.KeepsReferences)
    {s : Text} (hs : InOrder s) : InOrder (rules.apply s) := by
  induction rules generalizing s with
  | nil => exact hs
  | cons rule rules ih =>
    obtain ⟨hrule, hrules⟩ := List.forall_mem_cons.1 hrules
    exact ih hrules (hrule.scan hs none (by simp))

theorem inOrder_reference {name : Text} (hname : name ∈ dialectNames) : InOrder (reference name) := by
  have hall : dialectNames.all (fun name => (symbols.lookup name).isNone &&
      name.all isNameCharacter && (named? name).isSome) = true := by decide
  have hentry := List.all_eq_true.1 hall name hname
  simp only [Bool.and_eq_true, Option.isNone_iff_eq_none, List.all_eq_true] at hentry
  obtain ⟨⟨hsymbol, hletters⟩, hsome⟩ := hentry
  obtain ⟨text, hnamed⟩ := Option.isSome_iff_exists.1 hsome
  rw [reference, hsymbol]
  exact inOrder_of_named? hletters hnamed

/-- No blank lies between space and the controls beyond ASCII. -/
theorem toNat_of_isBlank {c : Char} (hc : isBlank c) : c.toNat ≤ 32 ∨ 133 ≤ c.toNat := by
  obtain ⟨range, hrange, hlow, hhigh⟩ := Ranges.exists_of_contains hc
  have hbounds : ∀ range ∈ blankRanges, range.2 ≤ 32 ∨ 133 ≤ range.1 := by decide
  have hrange := hbounds range hrange
  omega

theorem isBlank_of_isNameCharacter {c : Char} (hc : isNameCharacter c) : isBlank c = false := by
  rw [Bool.eq_false_iff]
  intro hblank
  have hcode := toNat_of_isBlank hblank
  rw [← Char.toNat_val] at hcode
  simp only [isNameCharacter, Char.isAlphanum, Char.isAlpha, Char.isUpper, Char.isLower,
    Char.isDigit, Bool.or_eq_true, Bool.and_eq_true, decide_eq_true_eq, ge_iff_le,
    UInt32.le_iff_toNat_le, Char.reduceVal, UInt32.reduceToNat] at hc
  omega

theorem isBlank_of_ofReference {c : Char} (hc : ofReference c) : isBlank c = false := by
  simp only [ofReference, isReferenceCharacter, Bool.or_eq_true, decide_eq_true_eq, or_assoc] at hc
  obtain rfl | hname | rfl | rfl := hc
  · decide
  · exact isBlank_of_isNameCharacter hname
  · decide
  · decide

theorem not_mem_typedSigns_of_ofReference {c : Char} (hc : ofReference c) : c ∉ typedSigns := by
  have htyped : typedSigns.all (fun c => !ofReference c) = true := by decide
  intro hmem
  simpa [hc] using List.all_eq_true.1 htyped c hmem

/-- A match covers nothing that references are made of. -/
theorem Match.IsSign.ofReference_eq_false {found : Match} {s : Text} (h : found.IsSign s) :
    ∀ c ∈ s.take (found.more + 1), ofReference c = false := by
  intro c hmem
  rw [Bool.eq_false_iff]
  intro hc
  obtain hblank | htyped := h.covers c hmem
  · simp [isBlank_of_ofReference hc] at hblank
  · exact not_mem_typedSigns_of_ofReference hc htyped

theorem inOrder_flatMap_reference {names : List Text} (hnames : names ⊆ dialectNames) :
    InOrder (names.flatMap reference) := by
  induction names with
  | nil => exact .nil
  | cons name names ih =>
    obtain ⟨hname, hnames⟩ := List.cons_subset.1 hnames
    exact (inOrder_reference hname).append (ih hnames)

/-- Blanks of a text in order. -/
theorem inOrder_blanks {blanks s : Text} (hblanks : ∀ c ∈ blanks, isBlank c) (hs : InOrder s)
    (hsubset : blanks ⊆ s) : InOrder blanks := by
  induction blanks with
  | nil => exact .nil
  | cons c blanks ih =>
    obtain ⟨hc, hblanks⟩ := List.forall_mem_cons.1 hblanks
    obtain ⟨hmem, hsubset⟩ := List.cons_subset.1 hsubset
    refine .character (fun hbad => ?_) (ih hblanks hsubset)
    simp only [String.reduceToList, List.mem_cons, List.not_mem_nil, or_false] at hbad
    obtain rfl | rfl | rfl | rfl := hbad
    · contradiction
    · contradiction
    · contradiction
    · exact hs.not_mem.2 hmem

theorem keepsReferences_of_mem_dialect {rule : Rule} (hrule : rule ∈ RuleSet.dialect) :
    rule.KeepsReferences where
  silent before c s hc := by
    refine Option.eq_none_iff_forall_ne_some.2 fun found hfound => ?_
    have hhead := (isSign_of_mem_dialect hrule hfound).ofReference_eq_false c (by simp)
    rw [hc] at hhead
    contradiction
  covers before s found hfound hmem := by
    have hcovered := (isSign_of_mem_dialect hrule hfound).ofReference_eq_false _ hmem
    contradiction
  writes before s found hfound hs := by
    obtain ⟨names, blanks, -, hnames, hcovered, hblanks, hwritten⟩ :=
      (isSign_of_mem_dialect hrule hfound).writes
    rw [hwritten]
    have hsubset : blanks ⊆ s := List.Subset.trans hcovered (List.take_subset _ _)
    exact (inOrder_flatMap_reference hnames).append (inOrder_blanks hblanks hs hsubset)

/-- Typographed dialect text keeps its references. -/
theorem inOrder_dialect_apply {s : Text} (hs : InOrder s) : InOrder (RuleSet.dialect.apply s) :=
  RuleSet.inOrder_apply (fun _ hrule => keepsReferences_of_mem_dialect hrule) hs

end PostMarkup.Typography
