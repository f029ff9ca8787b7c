import PostMarkup.Proofs.Typography.Ampersands
import PostMarkup.Proofs.Typography.Separators

namespace PostMarkup.Typography

/-- The second text is the first with stretches of it replaced. -/
inductive Replaced (replaces : Text → Text → Prop) : Text → Text → Prop
  | nil : Replaced replaces [] []
  | keep (c : Char) {s t : Text} (h : Replaced replaces s t) : Replaced replaces (c :: s) (c :: t)
  | stretch {covered written s t : Text} (hreplaces : replaces covered written)
      (h : Replaced replaces s t) : Replaced replaces (covered ++ s) (written ++ t)

namespace Replaced

variable {replaces : Text → Text → Prop} {s t : Text}

theorem refl (s : Text) : Replaced replaces s s := by
  induction s with
  | nil => exact .nil
  | cons c s ih => exact .keep c ih

theorem single (h : replaces s t) : Replaced replaces s t := by
  simpa using Replaced.stretch h .nil

theorem append {u v : Text} (h : Replaced replaces s t) (hrest : Replaced replaces u v) :
    Replaced replaces (s ++ u) (t ++ v) := by
  induction h with
  | nil => exact hrest
  | keep c h ih => exact .keep c ih
  | stretch hreplaces h ih =>
    rw [List.append_assoc, List.append_assoc]
    exact .stretch hreplaces ih

theorem symm (h : Replaced replaces s t) : Replaced (flip replaces) t s := by
  induction h with
  | nil => exact .nil
  | keep c h ih => exact .keep c ih
  | stretch hreplaces h ih => exact .stretch hreplaces ih

theorem mono {other : Text → Text → Prop} (hother : ∀ u v, replaces u v → other u v)
    (h : Replaced replaces s t) : Replaced other s t := by
  induction h with
  | nil => exact .nil
  | keep c h ih => exact .keep c ih
  | stretch hreplaces h ih => exact .stretch (hother _ _ hreplaces) ih

/-- A character that no stretch covers is kept, and both sides of it are typographed. -/
theorem exists_of_append_cons {c : Char} (hc : ∀ u v, replaces u v → c ∉ u) {front rest : Text}
    (h : Replaced replaces (front ++ c :: rest) t) :
    ∃ front' rest', t = front' ++ c :: rest' ∧ Replaced replaces front front' ∧
      Replaced replaces rest rest' := by
  generalize hwhole : front ++ c :: rest = whole at h
  induction h generalizing front with
  | nil => simp at hwhole
  | @keep d s t h ih =>
    obtain _ | ⟨e, front⟩ := front
    · obtain ⟨rfl, rfl⟩ := List.cons.inj hwhole
      exact ⟨[], t, rfl, .nil, h⟩
    · obtain ⟨rfl, htail⟩ := List.cons.inj hwhole
      obtain ⟨front', rest', rfl, hfront, hrest⟩ := ih htail
      exact ⟨e :: front', rest', rfl, .keep e hfront, hrest⟩
  | @stretch covered written s t hreplaces h ih =>
    obtain ⟨middle, rfl, hmiddle⟩ | ⟨middle, rfl, hmiddle⟩ := List.append_eq_append_iff.1 hwhole
    · obtain _ | ⟨d, middle⟩ := middle
      · have hhead : [] ++ c :: rest = s := hmiddle
        obtain ⟨front', rest', rfl, hfront, hrest⟩ := ih hhead
        refine ⟨written ++ front', rest', by simp, ?_, hrest⟩
        simpa using Replaced.stretch hreplaces hfront
      · obtain ⟨rfl, -⟩ := List.cons.inj hmiddle
        exact absurd (by simp) (hc _ _ hreplaces)
    · obtain ⟨front', rest', rfl, hfront, hrest⟩ := ih hmiddle.symm
      exact ⟨written ++ front', rest', by simp, .stretch hreplaces hfront, hrest⟩

theorem mem_of_mem {c : Char} (hwritten : ∀ u v, replaces u v → c ∉ v) (h : Replaced replaces s t)
    (hmem : c ∈ t) : c ∈ s := by
  obtain ⟨front, rest, rfl⟩ := List.append_of_mem hmem
  obtain ⟨source, sourceRest, rfl, -⟩ := h.symm.exists_of_append_cons fun u v huv => hwritten v u huv
  simp

section

variable (hcovered : ∀ u v, replaces u v → u ≠ [])

include hcovered

theorem eq_nil (h : Replaced replaces [] t) : t = [] := by
  generalize hs : ([] : Text) = s at h
  cases h with
  | nil => rfl
  | keep c h => contradiction
  | stretch hreplaces h => exact absurd (List.nil_eq_append_iff.1 hs).1 (hcovered _ _ hreplaces)

/-- Characters that no stretch covers are kept together. -/
theorem exists_of_append {kept : Text} (hkept : ∀ u v, replaces u v → ∀ c ∈ kept, c ∉ u)
    (h : Replaced replaces (kept ++ s) t) : ∃ rest, t = kept ++ rest ∧ Replaced replaces s rest := by
  induction kept generalizing t with
  | nil => exact ⟨t, rfl, h⟩
  | cons c kept ih =>
    have hfirst : ∀ u v, replaces u v → c ∉ u := fun u v huv => hkept u v huv c (by simp)
    have hlater : ∀ u v, replaces u v → ∀ d ∈ kept, d ∉ u := fun u v huv d hd =>
      hkept u v huv d (by simp [hd])
    have hwhole : Replaced replaces ([] ++ c :: (kept ++ s)) t := h
    obtain ⟨front, tail, rfl, hfront, htail⟩ := exists_of_append_cons hfirst hwhole
    obtain rfl := hfront.eq_nil hcovered
    obtain ⟨rest, rfl, hrest⟩ := ih hlater htail
    exact ⟨rest, rfl, hrest⟩

theorem exists_of_append_append {kept front rest : Text} (hnonempty : kept ≠ [])
    (hkept : ∀ u v, replaces u v → ∀ c ∈ kept, c ∉ u)
    (h : Replaced replaces (front ++ (kept ++ rest)) t) :
    ∃ front' rest', t = front' ++ (kept ++ rest') ∧ Replaced replaces front front' ∧
      Replaced replaces rest rest' := by
  obtain ⟨c, kept, rfl⟩ := List.exists_cons_of_ne_nil hnonempty
  have hfirst : ∀ u v, replaces u v → c ∉ u := fun u v huv => hkept u v huv c (by simp)
  have hlater : ∀ u v, replaces u v → ∀ d ∈ kept, d ∉ u := fun u v huv d hd =>
    hkept u v huv d (by simp [hd])
  obtain ⟨front', tail, rfl, hfront, htail⟩ := exists_of_append_cons hfirst h
  obtain ⟨rest', rfl, hrest⟩ := htail.exists_of_append hcovered hlater
  exact ⟨front', rest', rfl, hfront, hrest⟩

theorem suffix {kept : Text} (hkept : ∀ u v, replaces u v → ∀ c ∈ kept, c ∉ u)
    (h : Replaced replaces s t) (hs : kept <:+ s) : kept <:+ t := by
  by_cases hnil : kept = []
  · rw [hnil]
    exact List.nil_suffix
  · obtain ⟨front, rfl⟩ := hs
    rw [← List.append_nil kept] at h
    obtain ⟨front', rest', rfl, -, hrest⟩ := h.exists_of_append_append hcovered hnil hkept
    obtain rfl := hrest.eq_nil hcovered
    exact ⟨front', by simp⟩

theorem eq_singleton {c : Char} (hc : ∀ u v, replaces u v → u ≠ [c]) (h : Replaced replaces [c] t) :
    t = [c] := by
  generalize hs : [c] = s at h
  cases h with
  | nil => contradiction
  | keep d h =>
    obtain ⟨rfl, rfl⟩ := List.cons.inj hs
    rw [h.eq_nil hcovered]
  | @stretch covered written s t hreplaces h =>
    obtain ⟨rfl, -⟩ | ⟨rfl, -⟩ := List.singleton_eq_append_iff.1 hs
    · exact absurd rfl (hcovered _ _ hreplaces)
    · exact absurd rfl (hc _ _ hreplaces)

end

/-- Characters that no stretch writes were together before. -/
theorem infix_of_not_mem {kept : Text} (hnonempty : kept ≠ [])
    (hwritten : ∀ u v, replaces u v → v ≠ [] ∧ ∀ c ∈ kept, c ∉ v) (h : Replaced replaces s t)
    (hwithin : kept <:+: t) : kept <:+: s := by
  obtain ⟨front, rest, rfl⟩ := hwithin
  rw [List.append_assoc] at h
  obtain ⟨source, sourceRest, rfl, -, -⟩ :=
    h.symm.exists_of_append_append (fun u v huv => (hwritten v u huv).1) hnonempty
      fun u v huv => (hwritten v u huv).2
  exact ⟨source, sourceRest, by simp⟩

/-- A character at the end that no stretch writes there was there. -/
theorem exists_of_concat {c : Char} {front : Text}
    (hwritten : ∀ u v, replaces u v → v ≠ [] ∧ v.getLast? ≠ some c)
    (h : Replaced replaces s (front ++ [c])) :
    ∃ source, s = source ++ [c] ∧ Replaced replaces source front := by
  generalize hwhole : front ++ [c] = whole at h
  induction h generalizing front with
  | nil => simp at hwhole
  | @keep d s t h ih =>
    obtain _ | ⟨e, front⟩ := front
    · obtain ⟨rfl, rfl⟩ := List.cons.inj hwhole
      obtain rfl := h.symm.eq_nil fun u v huv => (hwritten v u huv).1
      exact ⟨[], rfl, .nil⟩
    · obtain ⟨rfl, htail⟩ := List.cons.inj hwhole
      obtain ⟨source, rfl, hsource⟩ := ih htail
      exact ⟨e :: source, rfl, .keep e hsource⟩
  | @stretch covered written s t hreplaces h ih =>
    obtain ⟨middle, rfl, hmiddle⟩ | ⟨middle, rfl, hmiddle⟩ := List.append_eq_append_iff.1 hwhole
    · obtain ⟨rfl, rfl⟩ | ⟨rfl, rfl⟩ := List.singleton_eq_append_iff.1 hmiddle
      · have hlast : [] ++ [c] = [c] := rfl
        obtain ⟨source, rfl, hsource⟩ := ih hlast
        refine ⟨covered ++ source, by simp, ?_⟩
        simpa using Replaced.stretch hreplaces hsource
      · exact absurd (by simp) (hwritten _ _ hreplaces).2
    · obtain ⟨source, rfl, hsource⟩ := ih hmiddle.symm
      exact ⟨covered ++ source, by simp, .stretch hreplaces hsource⟩

end Replaced

/-- Every match of the rule replaces such stretches. -/
def Rule.Replaces (rule : Rule) (replaces : Text → Text → Prop) : Prop :=
  ∀ before s found, rule before s = some found →
    Replaced replaces (s.take (found.more + 1)) found.written

theorem Rule.Replaces.scan {rule : Rule} {replaces : Text → Text → Prop}
    (hrule : rule.Replaces replaces) (before : Option Char) (covered : Nat) (s : Text) :
    Replaced replaces (s.drop covered) (rule.scan before covered s) := by
  induction s generalizing before covered with
  | nil =>
    rw [List.drop_nil, Rule.scan]
    exact .nil
  | cons c s ih =>
    cases covered with
    | succ covered => exact ih _ _
    | zero =>
      rw [List.drop_zero, Rule.scan]
      split
      · next found hfound =>
        rw [← List.take_append_drop (found.more + 1) (c :: s), List.drop_succ_cons]
        exact (hrule before (c :: s) found hfound).append (ih _ _)
      · exact .keep c (ih (some c) 0)

theorem Rule.Replaces.apply {rule : Rule} {replaces : Text → Text → Prop}
    (hrule : rule.Replaces replaces) (s : Text) : Replaced replaces s (rule.apply s) :=
  hrule.scan none 0 s

/-- Every match of the rule writes a reference first. -/
def Rule.WritesReferences (rule : Rule) : Prop :=
  ∀ before s found, rule before s = some found → found.written.head? = some '&'

/-- So where something else stands in the scanned text, it was there and the rule found nothing. -/
theorem Rule.WritesReferences.exists_of_scan_eq_cons {rule : Rule} (hrule : rule.WritesReferences)
    {before : Option Char} {c : Char} {s t : Text} (hc : c ≠ '&')
    (hscan : rule.scan before 0 s = c :: t) :
    ∃ rest, s = c :: rest ∧ rule before s = none ∧ t = rule.scan (some c) 0 rest := by
  obtain _ | ⟨d, s⟩ := s
  · contradiction
  · rw [Rule.scan] at hscan
    split at hscan
    · next found hfound =>
      obtain ⟨written, hwritten⟩ := List.head?_eq_some_iff.1 (hrule before (d :: s) found hfound)
      rw [hwritten] at hscan
      exact absurd (List.cons.inj hscan).1.symm hc
    · next hnone =>
      obtain ⟨rfl, rfl⟩ := List.cons.inj hscan
      exact ⟨s, rfl, hnone, rfl⟩

theorem Rule.WritesReferences.exists_of_scan_eq_append {rule : Rule} (hrule : rule.WritesReferences)
    {before : Option Char} {kept s t : Text} (hkept : '&' ∉ kept)
    (hscan : rule.scan before 0 s = kept ++ t) : ∃ rest, s = kept ++ rest := by
  induction kept generalizing before s with
  | nil => exact ⟨s, rfl⟩
  | cons c kept ih =>
    simp only [List.mem_cons, not_or] at hkept
    obtain ⟨rest, rfl, -, hlater⟩ := hrule.exists_of_scan_eq_cons (Ne.symm hkept.1) hscan
    obtain ⟨rest, rfl⟩ := ih hkept.2 hlater.symm
    exact ⟨rest, rfl⟩

theorem writesReferences_of_mem_dialect {rule : Rule} (hrule : rule ∈ RuleSet.dialect) :
    rule.WritesReferences := by
  intro before s found hfound
  obtain ⟨names, blanks, hnonempty, -, -, -, hwritten⟩ :=
    (setSign_of_mem_dialect hrule hfound).writes
  rw [hwritten, List.head?_append, head?_flatMap_reference hnonempty]
  rfl

section

variable {replaces : Text → Text → Prop}

theorem replaces_of_mem_dialect
    (hsign : ∀ covered written, SetSign covered written → replaces covered written) {rule : Rule}
    (hrule : rule ∈ RuleSet.dialect) : rule.Replaces replaces :=
  fun _ _ _ hfound => .single (hsign _ _ (setSign_of_mem_dialect hrule hfound))

theorem replaces_hyphenSpacing (hspaced : ∀ c blank, isBlank blank →
    Replaced replaces [c, '-', blank] [c, ' ', '-', blank]) :
    Rule.Replaces hyphenSpacing replaces := by
  intro before s found hfound
  obtain ⟨c, blank, blanks, hblank, hwritten, hcovered⟩ := exists_of_hyphenSpacing hfound
  rw [hcovered, hwritten]
  exact (hspaced c blank hblank).append (.refl blanks)

theorem replaces_digitMinus (hminus : replaces ['-'] minusSign) :
    Rule.Replaces digitMinus replaces := by
  intro before s found hfound
  unfold digitMinus at hfound
  split at hfound
  · next a b rest =>
    split at hfound
    · obtain rfl := Option.some.inj hfound
      exact .keep a (.stretch hminus (.refl [b]))
    · contradiction
  · contradiction

theorem replaces_symbol {spelling : Text} (hnonempty : spelling ≠ [])
    (hsymbol : replaces spelling (reference spelling)) :
    Rule.Replaces (symbol spelling) replaces := by
  intro before s found hfound
  unfold symbol at hfound
  split at hfound
  · next rest hafter =>
    split at hfound
    · contradiction
    · obtain rfl := Option.some.inj hfound
      obtain rfl := Text.after?_eq_some_iff.1 hafter
      have hlength : spelling.length - 1 + 1 = spelling.length :=
        Nat.sub_add_cancel (List.length_pos_iff.2 hnonempty)
      rw [hlength, List.take_left]
      exact .single hsymbol
  · contradiction

theorem replaces_openingQuote (hopening : ∀ c ∈ "\"»".toList, replaces [c] ['«']) :
    Rule.Replaces openingQuote replaces := by
  intro before s found hfound
  unfold openingQuote at hfound
  split at hfound
  · next c next rest =>
    split at hfound
    · next hquote =>
      obtain rfl := Option.some.inj hfound
      simp only [Bool.and_eq_true, Bool.or_eq_true, decide_eq_true_eq] at hquote
      exact .stretch (hopening c (by simpa using hquote.1)) (.refl [next])
    · contradiction
  · contradiction

theorem replaces_closingQuote (hclosing : ∀ c ∈ "\"«".toList, replaces [c] ['»']) :
    Rule.Replaces closingQuote replaces := by
  intro before s found hfound
  unfold closingQuote at hfound
  split at hfound
  · next last c rest =>
    split at hfound
    · next hquote =>
      obtain rfl := Option.some.inj hfound
      simp only [Bool.and_eq_true, Bool.or_eq_true, decide_eq_true_eq] at hquote
      exact .keep last (.single (hclosing c (by simpa using hquote.2)))
    · contradiction
  · contradiction

end

/-- The stretches that rules replace, as they are typed and as they are written. -/
inductive Stretch : Text → Text → Prop
  | sign {covered written : Text} (h : SetSign covered written) : Stretch covered written
  | spaced : Stretch ['-'] [' ', '-']
  | minus : Stretch ['-'] minusSign
  | symbol {entry : Text × Text} (hentry : entry ∈ symbols) : Stretch entry.1 (reference entry.1)
  | opening {c : Char} (hc : c ∈ "\"»".toList) : Stretch [c] ['«']
  | closing {c : Char} (hc : c ∈ "\"«".toList) : Stretch [c] ['»']

theorem replaces_stretch {rule : Rule}
    (hrule : rule ∈ RuleSet.shared ++ RuleSet.fractions ++ [openingQuote, closingQuote]) :
    rule.Replaces Stretch := by
  obtain hrule | hquote := List.mem_append.1 hrule
  · obtain hshared | hsymbol := List.mem_append.1 hrule
    · obtain rfl | hrule := List.mem_cons.1 hshared
      · exact replaces_hyphenSpacing fun c blank _ => .keep c (.stretch Stretch.spaced (.refl [blank]))
      · obtain hdialect | hminus := List.mem_append.1 hrule
        · exact replaces_of_mem_dialect (fun _ _ => .sign) hdialect
        · obtain rfl := List.mem_singleton.1 hminus
          exact replaces_digitMinus .minus
    · obtain ⟨entry, hentry, rfl⟩ := List.mem_map.1 hsymbol
      have hnonempty : ∀ entry ∈ symbols, entry.1 ≠ [] := by decide
      exact replaces_symbol (hnonempty entry hentry) (.symbol hentry)
  · obtain rfl | rfl : rule = openingQuote ∨ rule = closingQuote := by simpa using hquote
    · exact replaces_openingQuote fun _ => .opening
    · exact replaces_closingQuote fun _ => .closing

/-- Every rule set has its rules from those. -/
theorem RuleSet.subset_of_mem_sets {rules : RuleSet}
    (hrules : rules ∈ [RuleSet.dialect, RuleSet.html, RuleSet.inline]) :
    rules ⊆ RuleSet.shared ++ RuleSet.fractions ++ [openingQuote, closingQuote] := by
  simp only [List.mem_cons, List.not_mem_nil, or_false] at hrules
  obtain rfl | rfl | rfl := hrules
  · intro rule hrule
    simp [RuleSet.shared, hrule]
  · exact List.subset_append_left _ _
  · intro rule hrule
    obtain hshared | hquote : rule ∈ RuleSet.shared ∨ rule ∈ [openingQuote, closingQuote] :=
      List.mem_append.1 hrule
    · simp [hshared]
    · exact List.mem_append_right _ hquote

section

variable (related : Text → Text → Prop) (hrefl : ∀ s, related s s)
  (htrans : ∀ s t u, related s t → related t u → related s u)

include hrefl htrans

/-- A relation that holds around each stretch, wherever it stands, holds between the texts. -/
theorem Replaced.related_append {replaces : Text → Text → Prop}
    (hreplaces : ∀ u v, replaces u v → ∀ front rest,
      related (front ++ (u ++ rest)) (front ++ (v ++ rest)))
    {s t : Text} (h : Replaced replaces s t) (front : Text) : related (front ++ s) (front ++ t) := by
  induction h generalizing front with
  | nil => exact hrefl _
  | keep c h ih => simpa using ih (front ++ [c])
  | @stretch covered written s t hstretch h ih =>
    -- First the stretch with the rest as it was, then the rest with what is written before it.
    have hlater := ih (front ++ written)
    rw [List.append_assoc, List.append_assoc] at hlater
    exact htrans _ _ _ (hreplaces _ _ hstretch front s) hlater

theorem RuleSet.related_apply
    (hstretch : ∀ u v, Stretch u v → ∀ front rest,
      related (front ++ (u ++ rest)) (front ++ (v ++ rest)))
    {rules : RuleSet}
    (hrules : rules ⊆ RuleSet.shared ++ RuleSet.fractions ++ [openingQuote, closingQuote])
    (s : Text) : related s (rules.apply s) := by
  refine RuleSet.applyAfter_induction related hrefl htrans (fun rule hrule t => ?_) s
  have hreplaced := (replaces_stretch (hrules hrule)).scan none 0 t
  exact hreplaced.related_append related hrefl htrans hstretch []

end

end PostMarkup.Typography
