import PostMarkup.Proofs.Typography.References
import PostMarkup.Proofs.Typography.Replacement

namespace PostMarkup.Typography

open Reference (isNameCharacter)

/-- An ampersand, a number sign or none, letters and digits of ASCII, and a semicolon. -/
def IsReference (r : Text) : Prop :=
  ∃ sign name, (sign = [] ∨ sign = ['#']) ∧ name ≠ [] ∧ (∀ c ∈ name, isNameCharacter c) ∧
    r = '&' :: (sign ++ name ++ [';'])

/-- The reference at the head of a text. -/
def referenceAt? : Text → Option Text
  | '&' :: s =>
    let sign := if s.head? = some '#' then ['#'] else []
    let named := s.drop sign.length
    match named.takeWhile isNameCharacter, named.dropWhile isNameCharacter with
    | c :: name, ';' :: _ => some ('&' :: (sign ++ c :: name ++ [';']))
    | _, _ => none
  | _ => none

/-- The references of a text, in order. No two of them overlap, since each has one ampersand. -/
def references (s : Text) : List Text := s.tails.filterMap referenceAt?

theorem referenceAt?_eq_some_iff {s r : Text} :
    referenceAt? s = some r ↔ IsReference r ∧ r <+: s := by
  constructor
  · intro hread
    unfold referenceAt? at hread
    split at hread
    · next s =>
      have hsign : ∃ sign, (sign = [] ∨ sign = ['#']) ∧
          sign = (if s.head? = some '#' then ['#'] else []) ∧ s = sign ++ s.drop sign.length := by
        obtain _ | ⟨c, s⟩ := s
        · exact ⟨[], by simp⟩
        · by_cases hc : c = '#'
          · exact ⟨['#'], by simp [hc]⟩
          · exact ⟨[], by simp [hc]⟩
      obtain ⟨sign, hsign, hread_sign, hs⟩ := hsign
      rw [← hread_sign] at hread
      dsimp only at hread
      split at hread
      · next c name rest hname hrest =>
        obtain rfl := Option.some.inj hread
        have hall : ∀ d ∈ c :: name, isNameCharacter d := hname ▸ fun _ => Text.of_mem_takeWhile
        refine ⟨⟨sign, c :: name, hsign, by simp, hall, rfl⟩, rest, ?_⟩
        have hnamed := List.takeWhile_append_dropWhile (p := isNameCharacter)
          (l := s.drop sign.length)
        rw [hname, hrest] at hnamed
        rw [hs, ← hnamed]
        simp
      · contradiction
    · contradiction
  · rintro ⟨⟨sign, name, hsign, hnonempty, hname, rfl⟩, rest, rfl⟩
    obtain ⟨c, name, rfl⟩ := List.exists_cons_of_ne_nil hnonempty
    have hstop : isNameCharacter ';' = false := by decide
    have hc : c ≠ '#' := fun heq => absurd (heq ▸ hname c (by simp)) (by decide)
    have hrun := Text.takeWhile_append_stop hname hstop rest
    have hafter := Text.dropWhile_append_stop hname hstop rest
    rw [List.cons_append] at hrun hafter
    obtain rfl | rfl := hsign <;> simp [referenceAt?, hc, hrun, hafter]

instance : DecidablePred IsReference := fun r =>
  decidable_of_iff (referenceAt? r = some r) <| by
    rw [referenceAt?_eq_some_iff]
    exact and_iff_left (List.prefix_refl r)

/-- A character that no reference has after its ampersand. -/
structure IsBreak (c : Char) : Prop where
  sign : c ≠ '#'
  semicolon : c ≠ ';'
  name : isNameCharacter c = false

instance : DecidablePred IsBreak := fun c =>
  decidable_of_iff (c ≠ '#' ∧ c ≠ ';' ∧ isNameCharacter c = false)
    ⟨fun ⟨hsign, hsemicolon, hname⟩ => ⟨hsign, hsemicolon, hname⟩,
     fun h => ⟨h.sign, h.semicolon, h.name⟩⟩

theorem IsReference.exists_cons {r : Text} (hr : IsReference r) :
    ∃ body, r = '&' :: body ∧ ∀ c ∈ body, ¬ IsBreak c := by
  obtain ⟨sign, name, hsign, -, hname, rfl⟩ := hr
  refine ⟨sign ++ name ++ [';'], rfl, fun c hc hbreak => ?_⟩
  simp only [List.mem_append, List.mem_singleton] at hc
  obtain (hc | hc) | rfl := hc
  · obtain rfl | rfl := hsign
    · contradiction
    · exact hbreak.sign (List.mem_singleton.1 hc)
  · simpa [hname c hc] using hbreak.name
  · exact hbreak.semicolon rfl

theorem IsReference.getLast? {r : Text} (hr : IsReference r) : r.getLast? = some ';' := by
  obtain ⟨sign, name, -, -, -, rfl⟩ := hr
  rw [← List.cons_append, List.getLast?_concat]

theorem references_cons (c : Char) (s : Text) :
    references (c :: s) = (referenceAt? (c :: s)).toList ++ references s := by
  rw [references, List.tails_cons, List.filterMap_cons, references]
  cases referenceAt? (c :: s) <;> rfl

theorem referenceAt?_of_head? {s : Text} (hhead : s.head? ≠ some '&') : referenceAt? s = none := by
  refine Option.eq_none_iff_forall_ne_some.2 fun r hread => ?_
  obtain ⟨hr, rest, rfl⟩ := referenceAt?_eq_some_iff.1 hread
  obtain ⟨body, rfl, -⟩ := hr.exists_cons
  exact hhead rfl

theorem references_append_of_not_mem {u : Text} (hu : '&' ∉ u) (v : Text) :
    references (u ++ v) = references v := by
  induction u with
  | nil => rfl
  | cons c u ih =>
    simp only [List.mem_cons, not_or] at hu
    rw [List.cons_append, references_cons, referenceAt?_of_head? (by simpa using Ne.symm hu.1),
      ih hu.2]
    rfl

/-- A text into which no reference goes on from before it. -/
def Unreached (v : Text) : Prop := ∀ r u, IsReference r → u ≠ [] → r <+: u ++ v → r <+: u

theorem references_append {v : Text} (hv : Unreached v) (u : Text) :
    references (u ++ v) = references u ++ references v := by
  induction u with
  | nil => rfl
  | cons c u ih =>
    have hread : referenceAt? (c :: u ++ v) = referenceAt? (c :: u) := by
      ext r
      rw [referenceAt?_eq_some_iff, referenceAt?_eq_some_iff]
      exact and_congr_right fun hr =>
        ⟨hv r (c :: u) hr (by simp), fun h => h.trans (List.prefix_append _ _)⟩
    rw [List.cons_append] at hread
    rw [List.cons_append, references_cons, hread, ih, references_cons, List.append_assoc]

theorem prefix_of_not_mem {r u v : Text} {c : Char} (hc : c ∉ r) (h : r <+: u ++ c :: v) :
    r <+: u := by
  obtain hshort | ⟨w, rfl⟩ := List.prefix_or_prefix_of_prefix h (List.prefix_append u (c :: v))
  · exact hshort
  · obtain _ | ⟨d, w⟩ := w
    · rw [List.append_nil]
    · obtain ⟨rfl, -⟩ := List.cons_prefix_cons.1 ((List.prefix_append_right_inj u).1 h)
      exact absurd (by simp) hc

theorem suffix_of_not_mem {r u v : Text} {c : Char} (hc : c ∉ r) (h : r <:+ u ++ c :: v) :
    r <:+ v := by
  have hreverse : r.reverse <+: v.reverse ++ c :: u.reverse := by
    simpa using List.reverse_prefix.2 h
  exact List.reverse_prefix.1 (prefix_of_not_mem (by simpa using hc) hreverse)

theorem unreached_of_break {b : Char} (hb : IsBreak b) (v : Text) : Unreached (b :: v) := by
  intro r u hr hu h
  obtain ⟨body, rfl, hbody⟩ := hr.exists_cons
  obtain ⟨c, u, rfl⟩ := List.exists_cons_of_ne_nil hu
  obtain ⟨rfl, hlater⟩ := List.cons_prefix_cons.1 h
  exact List.cons_prefix_cons.2 ⟨rfl, prefix_of_not_mem (fun hmem => hbody b hmem hb) hlater⟩

/-- A text in which no reference begins and none ends. -/
def IsPlain (s : Text) : Prop := '&' ∉ s ∧ ';' ∉ s

instance : DecidablePred IsPlain := fun s => inferInstanceAs (Decidable ('&' ∉ s ∧ ';' ∉ s))

theorem unreached_of_isPlain {v : Text} (hv : IsPlain v) : Unreached v := by
  intro r u hr _ h
  obtain hshort | ⟨w, rfl⟩ := List.prefix_or_prefix_of_prefix h (List.prefix_append u v)
  · exact hshort
  · obtain rfl | ⟨w, last, rfl⟩ := List.eq_nil_or_concat w
    · rw [List.append_nil]
    · have hlast : last = ';' := by
        have hlast := hr.getLast?
        rw [List.concat_eq_append, ← List.append_assoc, List.getLast?_concat] at hlast
        exact Option.some.inj hlast
      have hmem : last ∈ v := ((List.prefix_append_right_inj u).1 h).subset (by simp)
      exact absurd (hlast ▸ hmem) hv.2

/-- A stretch in which no reference begins or ends, and across which none goes. -/
structure KeepsApart (s : Text) : Prop where
  plain : IsPlain s
  parted : ∃ b ∈ s, IsBreak b

theorem KeepsApart.unreached {middle : Text} (h : KeepsApart middle) (rest : Text) :
    Unreached (middle ++ rest) := by
  intro r u hr hu hprefix
  obtain ⟨b, hmem, hb⟩ := h.parted
  obtain ⟨lead, tail, rfl⟩ := List.append_of_mem hmem
  have hlead : IsPlain lead :=
    ⟨fun hmem => h.plain.1 (by simp [hmem]), fun hmem => h.plain.2 (by simp [hmem])⟩
  have hsplit : u ++ (lead ++ b :: tail ++ rest) = u ++ lead ++ b :: (tail ++ rest) := by simp
  rw [hsplit] at hprefix
  have hshort : r <+: u ++ lead :=
    unreached_of_break hb _ r (u ++ lead) hr (by simp [hu]) hprefix
  exact unreached_of_isPlain hlead r u hr hu hshort

theorem KeepsApart.references_append {middle : Text} (h : KeepsApart middle) (front rest : Text) :
    references (front ++ (middle ++ rest)) = references front ++ references rest := by
  rw [Typography.references_append (h.unreached rest), references_append_of_not_mem h.plain.1]

/-- The references that the rules write. -/
def writtenReferences : List Text :=
  ["&plusmn;", "&nbsp;", "&mdash;", "&hellip;", "&minus;", "&frac12;", "&frac14;", "&frac34;"].map
    String.toList

theorem references_append_reference {r : Text} (hr : IsReference r) (rest : Text) :
    references (r ++ rest) = r :: references rest := by
  have hread : referenceAt? (r ++ rest) = some r :=
    referenceAt?_eq_some_iff.2 ⟨hr, List.prefix_append r rest⟩
  obtain ⟨body, rfl, hbody⟩ := hr.exists_cons
  have hlater : '&' ∉ body := fun hmem => hbody '&' hmem (by decide)
  rw [List.cons_append] at hread ⊢
  rw [references_cons, hread, references_append_of_not_mem hlater]
  rfl

theorem references_flatMap_reference {names : List Text}
    (hnames : ∀ name ∈ names, reference name ∈ writtenReferences) (rest : Text) :
    references (names.flatMap reference ++ rest) = names.map reference ++ references rest := by
  have hwritten : ∀ r ∈ writtenReferences, IsReference r := by decide
  induction names with
  | nil => rfl
  | cons name names ih =>
    obtain ⟨hname, hnames⟩ := List.forall_mem_cons.1 hnames
    rw [List.flatMap_cons, List.append_assoc,
      references_append_reference (hwritten _ hname), ih hnames, List.map_cons, List.cons_append]

/-- The second text has the references of the first in their order, and beside them only written
    ones. -/
structure AddsReferences (s t : Text) : Prop where
  kept : (references s).Sublist (references t)
  added : ∃ added, added ⊆ writtenReferences ∧ (references t).Perm (references s ++ added)

namespace AddsReferences

theorem refl (s : Text) : AddsReferences s s :=
  ⟨List.Sublist.refl _, [], List.nil_subset _, by rw [List.append_nil]⟩

theorem trans {s t u : Text} (h : AddsReferences s t) (hnext : AddsReferences t u) :
    AddsReferences s u where
  kept := h.kept.trans hnext.kept
  added := by
    obtain ⟨first, hfirst, hperm⟩ := h.added
    obtain ⟨second, hsecond, hpermNext⟩ := hnext.added
    refine ⟨first ++ second, List.append_subset.2 ⟨hfirst, hsecond⟩, hpermNext.trans ?_⟩
    rw [← List.append_assoc]
    exact hperm.append_right second

theorem of_inserted {s t : Text} {first later : List Text} (added : List Text)
    (hs : references s = first ++ later) (ht : references t = first ++ (added ++ later))
    (hadded : added ⊆ writtenReferences) : AddsReferences s t where
  kept := by
    rw [hs, ht]
    exact (List.Sublist.refl first).append (List.sublist_append_right added later)
  added := by
    refine ⟨added, hadded, ?_⟩
    rw [hs, ht, List.append_assoc]
    exact List.perm_append_comm.append_left first

end AddsReferences

/-- A stretch adds references wherever it stands. -/
def AddsInPlace (covered written : Text) : Prop :=
  ∀ front rest, AddsReferences (front ++ (covered ++ rest)) (front ++ (written ++ rest))

/-- References in the place of a stretch that keeps its sides apart. -/
theorem KeepsApart.addsInPlace_reference {covered tail : Text} {names : List Text}
    (h : KeepsApart covered) (hnonempty : names ≠ [])
    (hnames : ∀ name ∈ names, reference name ∈ writtenReferences) (htail : '&' ∉ tail) :
    AddsInPlace covered (names.flatMap reference ++ tail) := by
  intro front rest
  refine .of_inserted (names.map reference) (h.references_append front rest) ?_ ?_
  · have hwritten := references_flatMap_reference hnames (tail ++ rest)
    obtain ⟨s, hs⟩ := List.head?_eq_some_iff.1 (head?_flatMap_reference hnonempty)
    rw [references_append_of_not_mem htail] at hwritten
    rw [List.append_assoc, ← hwritten, hs, List.cons_append,
      Typography.references_append (unreached_of_break (by decide) _)]
  · intro r hr
    obtain ⟨name, hname, rfl⟩ := List.mem_map.1 hr
    exact hnames name hname

/-- Another such stretch in its place. -/
theorem KeepsApart.addsInPlace {covered written : Text} (h : KeepsApart covered)
    (hwritten : KeepsApart written) : AddsInPlace covered written := fun front rest =>
  .of_inserted [] (h.references_append front rest) (hwritten.references_append front rest)
    (List.nil_subset _)

theorem isBreak_of_isBlank {c : Char} (hc : isBlank c) : IsBreak c ∧ c ≠ '&' := by
  have hmarks : ∀ c ∈ "#;&".toList, isBlank c = false := Text.forall_of_all (by decide)
  have hne : ∀ d ∈ "#;&".toList, c ≠ d := by
    rintro d hd rfl
    simp [hmarks c hd] at hc
  refine ⟨⟨hne '#' (by simp), hne ';' (by simp), ?_⟩, hne '&' (by simp)⟩
  by_contra hname
  simp [isBlank_of_isNameCharacter (by simpa using hname)] at hc

/-- A stretch of breaks other than ampersands. -/
theorem keepsApart_of_forall {s : Text} (hs : ∀ c ∈ s, IsBreak c ∧ c ≠ '&') (hnonempty : s ≠ []) :
    KeepsApart s where
  plain := ⟨fun hmem => (hs '&' hmem).2 rfl, fun hmem => (hs ';' hmem).1.semicolon rfl⟩
  parted := by
    obtain ⟨c, hc⟩ := List.exists_mem_of_ne_nil s hnonempty
    exact ⟨c, hc, (hs c hc).1⟩

namespace Stretch

variable {covered written : Text}

/-- No stretch holds an ampersand or a semicolon, and each has a sign, a quote or a slash. -/
theorem keepsApart (h : Stretch covered written) : KeepsApart covered := by
  cases h with
  | sign h =>
    have htyped : ∀ c ∈ typedSigns, IsBreak c ∧ c ≠ '&' := Text.forall_of_all (by decide)
    obtain ⟨c, hc, -⟩ := h.typed
    exact keepsApart_of_forall (fun d hd => (h.covers d hd).elim isBreak_of_isBlank (htyped d))
      (List.ne_nil_of_mem hc)
  | spaced => exact keepsApart_of_forall (Text.forall_of_all (by decide)) (by simp)
  | minus => exact keepsApart_of_forall (Text.forall_of_all (by decide)) (by simp)
  | @symbol entry hentry =>
    have hspelled : ∀ entry ∈ symbols, IsPlain entry.1 ∧ '/' ∈ entry.1 := by decide
    obtain ⟨hplain, hslash⟩ := hspelled entry hentry
    exact ⟨hplain, '/', hslash, by decide⟩
  | @opening c hc =>
    have hbreaks : ∀ c ∈ "\"»".toList, IsBreak c ∧ c ≠ '&' := Text.forall_of_all (by decide)
    exact keepsApart_of_forall (by simpa using hbreaks c hc) (by simp)
  | @closing c hc =>
    have hbreaks : ∀ c ∈ "\"«".toList, IsBreak c ∧ c ≠ '&' := Text.forall_of_all (by decide)
    exact keepsApart_of_forall (by simpa using hbreaks c hc) (by simp)

/-- What is written for a stretch has no reference to it, or it begins with references. -/
theorem writes (h : Stretch covered written) : KeepsApart written ∨
    ∃ names tail, names ≠ [] ∧ (∀ name ∈ names, reference name ∈ writtenReferences) ∧ '&' ∉ tail ∧
      written = names.flatMap reference ++ tail := by
  cases h with
  | sign h =>
    have hwritten : ∀ name ∈ dialectNames, reference name ∈ writtenReferences := by decide
    obtain ⟨names, blanks, hnonempty, hnames, -, hblanks, rfl⟩ := h.writes
    exact .inr ⟨names, blanks, hnonempty, fun name hname => hwritten name (hnames hname),
      fun hmem => (isBreak_of_isBlank (hblanks '&' hmem)).2 rfl, rfl⟩
  | spaced => exact .inl (keepsApart_of_forall (Text.forall_of_all (by decide)) (by simp))
  | minus => exact .inr ⟨["minus".toList], [], by simp, by decide, by simp, rfl⟩
  | @symbol entry hentry =>
    have hwritten : ∀ entry ∈ symbols, reference entry.1 ∈ writtenReferences := by decide
    exact .inr ⟨[entry.1], [], by simp, by simpa using hwritten entry hentry, by simp, by simp⟩
  | opening => exact .inl (keepsApart_of_forall (Text.forall_of_all (by decide)) (by simp))
  | closing => exact .inl (keepsApart_of_forall (Text.forall_of_all (by decide)) (by simp))

/-- Every stretch adds references in its place, or none. -/
theorem addsInPlace (h : Stretch covered written) : AddsInPlace covered written := by
  obtain hwritten | ⟨names, tail, hnonempty, hnames, htail, rfl⟩ := h.writes
  · exact h.keepsApart.addsInPlace hwritten
  · exact h.keepsApart.addsInPlace_reference hnonempty hnames htail

end Stretch

theorem RuleSet.addsReferences_apply {rules : RuleSet}
    (hrules : rules ⊆ RuleSet.shared ++ RuleSet.fractions ++ [openingQuote, closingQuote]) (s : Text) :
    AddsReferences s (rules.apply s) :=
  RuleSet.related_apply AddsReferences AddsReferences.refl (fun _ _ _ => AddsReferences.trans)
    (fun _ _ => Stretch.addsInPlace) hrules s

/-- No rule set damages a reference, and none adds any but its own. -/
theorem apply_addsReferences (s : Text) :
    AddsReferences s (RuleSet.dialect.apply s) ∧ AddsReferences s (RuleSet.html.apply s) ∧
      AddsReferences s (RuleSet.inline.apply s) :=
  ⟨RuleSet.addsReferences_apply (RuleSet.subset_of_mem_sets (by simp)) s,
    RuleSet.addsReferences_apply (RuleSet.subset_of_mem_sets (by simp)) s,
    RuleSet.addsReferences_apply (RuleSet.subset_of_mem_sets (by simp)) s⟩

end PostMarkup.Typography
