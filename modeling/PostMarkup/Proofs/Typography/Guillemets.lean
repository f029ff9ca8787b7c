import Mathlib.Algebra.Group.Nat.Even
import PostMarkup.Proofs.Typography.Quotes
import PostMarkup.Proofs.Typography.Replacement

namespace PostMarkup.Typography

/-- The quotes of a text open and close in turn, and one sees from the characters beside them which
    they do. -/
structure QuotesPaired (s : Text) : Prop where
  left : '«' ∉ s
  right : '»' ∉ s
  even : Even (s.count '"')
  apart : QuotesApart s
  opens : ∀ front rest, s = front ++ '"' :: rest → Even (front.count '"') →
    front.getLast?.all isBlank ∧ rest.head?.any (!isBlank ·)
  closes : ∀ front rest, s = front ++ '"' :: rest → ¬ Even (front.count '"') →
    front.getLast?.any (!isBlank ·)

/-- The same said of the places of the quotes. -/
theorem quotesPaired_iff {s : Text} : QuotesPaired s ↔
    '«' ∉ s ∧ '»' ∉ s ∧ Even (s.count '"') ∧ QuotesApart s ∧
      ∀ i < s.length, s[i]? = some '"' →
        (Even ((s.take i).count '"') →
          (s.take i).getLast?.all isBlank ∧ (s.drop (i + 1)).head?.any (!isBlank ·)) ∧
        (¬ Even ((s.take i).count '"') → (s.take i).getLast?.any (!isBlank ·)) := by
  have hplace {front rest : Text} {i : Nat} (hi : i = front.length) :
      (front ++ '"' :: rest).take i = front ∧ (front ++ '"' :: rest).drop (i + 1) = rest := by
    subst hi
    simp
  constructor
  · rintro ⟨hleft, hright, heven, hapart, hopens, hcloses⟩
    refine ⟨hleft, hright, heven, hapart, fun i hi hquote => ?_⟩
    have hs : s = s.take i ++ '"' :: s.drop (i + 1) := by
      obtain ⟨_, hget⟩ := List.getElem?_eq_some_iff.1 hquote
      rw [← hget, ← List.drop_eq_getElem_cons, List.take_append_drop]
    exact ⟨hopens _ _ hs, hcloses _ _ hs⟩
  · rintro ⟨hleft, hright, heven, hapart, hplaces⟩
    refine ⟨hleft, hright, heven, hapart, ?_, ?_⟩
    · rintro front rest rfl hcount
      have hall := hplaces front.length (by simp) (by simp)
      rw [(hplace rfl).1, (hplace rfl).2] at hall
      exact hall.1 hcount
    · rintro front rest rfl hcount
      have hall := hplaces front.length (by simp) (by simp)
      rw [(hplace rfl).1] at hall
      exact hall.2 hcount

instance : DecidablePred QuotesPaired := fun _ => decidable_of_iff' _ quotesPaired_iff

/-- The ends of a text are as visible after as before, and no quotes come or go. -/
structure EdgesKept (s t : Text) : Prop where
  count : ∀ c ∈ "\"«»".toList, t.count c = s.count c
  last : t.getLast?.map isBlank = s.getLast?.map isBlank
  head : s.head?.any (!isBlank ·) → t.head?.any (!isBlank ·)

namespace EdgesKept

theorem refl (s : Text) : EdgesKept s s := ⟨fun _ _ => rfl, rfl, id⟩

theorem trans {s t u : Text} (h : EdgesKept s t) (hnext : EdgesKept t u) : EdgesKept s u where
  count c hc := (hnext.count c hc).trans (h.count c hc)
  last := hnext.last.trans h.last
  head hhead := hnext.head (h.head hhead)

theorem eq_nil_iff {s t : Text} (h : EdgesKept s t) : t = [] ↔ s = [] := by
  rw [← List.getLast?_eq_none_iff, ← List.getLast?_eq_none_iff, ← Option.map_eq_none_iff,
    h.last, Option.map_eq_none_iff]

theorem append {s t u v : Text} (h : EdgesKept s t) (hrest : EdgesKept u v) :
    EdgesKept (s ++ u) (t ++ v) where
  count c hc := by rw [List.count_append, List.count_append, h.count c hc, hrest.count c hc]
  last := by
    have hboth (o p : Option Char) : (o.or p).map isBlank = (o.map isBlank).or (p.map isBlank) := by
      cases o <;> rfl
    rw [List.getLast?_append, List.getLast?_append, hboth, hboth, h.last, hrest.last]
  head hhead := by
    obtain _ | ⟨c, s⟩ := s
    · obtain rfl := h.eq_nil_iff.2 rfl
      exact hrest.head hhead
    · obtain ⟨d, t, rfl⟩ := List.exists_cons_of_ne_nil (h.eq_nil_iff.not.2 (by simp))
      exact h.head hhead

theorem any_getLast? {s t : Text} (h : EdgesKept s t) :
    t.getLast?.any (!isBlank ·) = s.getLast?.any (!isBlank ·) := by
  have hlast := congrArg (Option.any (!·)) h.last
  simpa [Option.any_map] using hlast

theorem all_getLast? {s t : Text} (h : EdgesKept s t) :
    t.getLast?.all isBlank = s.getLast?.all isBlank := by
  have hlast := congrArg (Option.all id) h.last
  simpa [Option.all_map] using hlast

end EdgesKept

theorem Replaced.edgesKept {s t : Text} (h : Replaced EdgesKept s t) : EdgesKept s t := by
  induction h with
  | nil => exact .refl []
  | keep c h ih => exact (EdgesKept.refl [c]).append ih
  | stretch hkept h ih => exact hkept.append ih

/-- No quote is typed in a sign or written for one. -/
theorem SetSign.quote_not_mem {covered written : Text} (h : SetSign covered written) {c : Char}
    (hc : c ∈ "\"«»".toList) : c ∉ covered ∧ c ∉ written := by
  have hquotes : ∀ c ∈ "\"«»".toList, isBlank c = false ∧ c ∉ typedSigns :=
    Text.forall_of_all (by decide)
  have hnames : ∀ name ∈ dialectNames, "\"«»".toList.all fun c => decide (c ∉ reference name) := by
    decide
  obtain ⟨hvisible, htyped⟩ := hquotes c hc
  obtain ⟨names, blanks, -, hdialect, -, hblanks, rfl⟩ := h.writes
  refine ⟨fun hmem => ?_, fun hmem => ?_⟩
  · obtain hblank | hsign := h.covers c hmem
    · simp [hvisible] at hblank
    · exact htyped hsign
  · obtain hmem | hmem := List.mem_append.1 hmem
    · obtain ⟨name, hname, hmem⟩ := List.mem_flatMap.1 hmem
      exact Text.forall_of_all (hnames name (hdialect hname)) c hc hmem
    · simpa [hvisible] using hblanks c hmem

theorem edgesKept_of_setSign {covered written : Text} (h : SetSign covered written) :
    EdgesKept covered written where
  count c hc := by
    rw [List.count_eq_zero.2 (h.quote_not_mem hc).1, List.count_eq_zero.2 (h.quote_not_mem hc).2]
  last := by
    cases h with
    | plusMinus => decide
    | ellipsis more =>
      have hlast : horizontalEllipsis.getLast?.map isBlank = some (isBlank '.') := by decide
      simp [hlast, List.getLast?_replicate]
    | dash => rw [List.getLast?_concat, List.getLast?_concat]
  head _ := by
    have hampersand : (some '&').any (!isBlank ·) := by decide
    obtain ⟨names, blanks, hnonempty, -, -, -, rfl⟩ := h.writes
    rwa [List.head?_append, head?_flatMap_reference hnonempty]

theorem edgesKept_hyphen (c blank : Char) : EdgesKept [c, '-', blank] [c, ' ', '-', blank] where
  count d hd := by
    have hspace : ' ' ∉ "\"«»".toList := by decide
    have hne : ' ' ≠ d := fun heq => hspace (heq ▸ hd)
    simp [List.count_cons, hne]
  last := rfl
  head := id

/-- The rules that come before the quotes keep quotes and edges, wherever they begin. -/
theorem RuleSet.edgesKept_applyAfter_shared (before : Option Char) (s : Text) :
    EdgesKept s (RuleSet.shared.applyAfter before s) := by
  refine RuleSet.applyAfter_induction EdgesKept EdgesKept.refl (fun _ _ _ => EdgesKept.trans)
    (fun rule hrule s => ?_) s
  have hreplaces : rule.Replaces EdgesKept := by
    obtain rfl | hrule := List.mem_cons.1 hrule
    · exact replaces_hyphenSpacing fun c blank _ => .single (edgesKept_hyphen c blank)
    obtain hdialect | hminus := List.mem_append.1 hrule
    · exact replaces_of_mem_dialect (fun _ _ => edgesKept_of_setSign) hdialect
    · obtain rfl := List.mem_singleton.1 hminus
      exact replaces_digitMinus
        ⟨Text.forall_of_all (by decide), by decide, by decide⟩
  exact (hreplaces.scan before 0 s).edgesKept

/-- No quotes are written. -/
theorem not_mem_applyAfter_shared {c : Char} (hc : c ∈ "\"«»".toList) (before : Option Char)
    {s : Text} (hs : c ∉ s) : c ∉ RuleSet.shared.applyAfter before s := by
  rw [← List.count_eq_zero, (RuleSet.edgesKept_applyAfter_shared before s).count c hc,
    List.count_eq_zero]
  exact hs

theorem isSeparator_quote : IsSeparator '"' := by decide +kernel

/-- Paired quotes are still paired when the other rules have run. -/
theorem QuotesPaired.apply_shared {s : Text} (h : QuotesPaired s) :
    QuotesPaired (RuleSet.shared.apply s) := by
  have hkept := RuleSet.edgesKept_applyAfter_shared
  have hsplit {before : Option Char} {s front rest : Text}
      (heq : RuleSet.shared.applyAfter before s = front ++ '"' :: rest) :=
    RuleSet.exists_of_applyAfter_eq (fun _ => isLocal_of_mem_shared) isSeparator_quote
      (fun other s => not_mem_applyAfter_shared (by decide) other) heq
  constructor
  · exact not_mem_applyAfter_shared (by decide) none h.left
  · exact not_mem_applyAfter_shared (by decide) none h.right
  · have hcount := (hkept none s).count '"' (by decide)
    rw [RuleSet.applyAfter_none] at hcount
    rw [hcount]
    exact h.even
  · rintro ⟨front, rest, heq⟩
    have hfirst : RuleSet.shared.applyAfter none s = front ++ '"' :: ('"' :: rest) := by
      rw [RuleSet.applyAfter_none, ← heq]
      simp
    obtain ⟨source, sourceRest, rfl, -, hrest⟩ := hsplit hfirst
    have hsecond : RuleSet.shared.applyAfter (some '"') sourceRest = [] ++ '"' :: rest := hrest.symm
    obtain ⟨middle, tail, rfl, hmiddle, -⟩ := hsplit hsecond
    obtain rfl := (hkept _ middle).eq_nil_iff.1 hmiddle.symm
    exact h.apart ⟨source, tail, by simp⟩
  · intro front rest heq heven
    obtain ⟨source, sourceRest, rfl, rfl, rfl⟩ := hsplit heq
    rw [(hkept none source).count '"' (by decide)] at heven
    obtain ⟨hbefore, hafter⟩ := h.opens source sourceRest rfl heven
    refine ⟨?_, (hkept _ sourceRest).head hafter⟩
    rwa [(hkept none source).all_getLast?]
  · intro front rest heq hodd
    obtain ⟨source, sourceRest, rfl, rfl, rfl⟩ := hsplit heq
    rw [(hkept none source).count '"' (by decide)] at hodd
    rw [(hkept none source).any_getLast?]
    exact h.closes source sourceRest rfl hodd

/-- The straight quotes of a text as guillemets, left and right in turn. The number counts the quotes
    before the text. -/
def guillemets : Nat → Text → Text
  | _, [] => []
  | n, c :: s =>
    if c = '"' then (if Even n then '«' else '»') :: guillemets (n + 1) s
    else c :: guillemets n s

/-- Paired quotes are set as guillemets in turn by their neighbours. -/
theorem QuotesPaired.setQuotes_eq {s : Text} (h : QuotesPaired s) (front rest : Text)
    (hs : s = front ++ rest) :
    setQuotes front.getLast? rest = guillemets (front.count '"') rest := by
  induction rest generalizing front with
  | nil => rfl
  | cons c rest ih =>
    have hnext := ih (front ++ [c]) (by simpa using hs)
    rw [List.getLast?_concat, List.count_append] at hnext
    by_cases hc : c = '"'
    · subst hc
      rw [setQuotes, if_pos rfl, guillemets, if_pos rfl, hnext]
      by_cases heven : Even (front.count '"')
      · obtain ⟨hbefore, hafter⟩ := h.opens front rest hs heven
        have hnone : front.getLast?.any (!isBlank ·) = false := by
          cases hlast : front.getLast? <;> simp_all
        simp [quoteBetween, hnone, hafter, heven]
      · simp [quoteBetween, h.closes front rest hs heven, heven]
    · rw [setQuotes_cons_of_ne hc, guillemets, if_neg hc, hnext]
      simp [hc]

def isGuillemet (c : Char) : Bool := c = '«' || c = '»'

theorem not_mem_guillemets (n : Nat) (s : Text) : '"' ∉ guillemets n s := by
  induction s generalizing n with
  | nil => simp [guillemets]
  | cons c s ih =>
    rw [guillemets]
    split
    · split <;> simp [ih]
    · next hc => simp [ih, Ne.symm hc]

section

variable {s : Text} (hleft : '«' ∉ s) (hright : '»' ∉ s)

include hleft hright

theorem filter_guillemets (n : Nat) : (guillemets n s).filter isGuillemet =
    (List.range' n (s.count '"')).map fun i => if Even i then '«' else '»' := by
  induction s generalizing n with
  | nil => rfl
  | cons c s ih =>
    have ih := ih (fun hmem => hleft (List.mem_cons_of_mem c hmem))
      (fun hmem => hright (List.mem_cons_of_mem c hmem))
    rw [guillemets]
    split
    · next hc =>
      subst hc
      rw [List.count_cons_self, List.range'_succ, List.map_cons, ← ih]
      split <;> simp [isGuillemet]
    · next hc =>
      have hplain : isGuillemet c = false := by
        simp only [List.mem_cons, not_or] at hleft hright
        simp [isGuillemet, Ne.symm hleft.1, Ne.symm hright.1]
      rw [List.count_cons_of_ne hc, ← ih, List.filter_cons_of_neg (by simp [hplain])]

theorem splitOnP_guillemets (n : Nat) :
    (guillemets n s).splitOnP isGuillemet = s.splitOn '"' := by
  induction s generalizing n with
  | nil => rfl
  | cons c s ih =>
    have ih := ih (fun hmem => hleft (List.mem_cons_of_mem c hmem))
      (fun hmem => hright (List.mem_cons_of_mem c hmem))
    rw [List.splitOn_eq_splitOnP] at ih ⊢
    rw [guillemets, List.splitOnP_cons_eq_if_modifyHead]
    split
    · next hc =>
      have hset : isGuillemet (if Even n then '«' else '»') := by split <;> rfl
      rw [List.splitOnP_cons_eq_if_modifyHead, if_pos hset, ih, if_pos (by simpa using hc)]
    · next hc =>
      simp only [List.mem_cons, not_or] at hleft hright
      have hplain : ¬ isGuillemet c := by simp [isGuillemet, Ne.symm hleft.1, Ne.symm hright.1]
      rw [List.splitOnP_cons_eq_if_modifyHead, if_neg hplain, ih, if_neg (by simpa using hc)]

end

/-- Paired quotes become guillemets in turn, and between them stand the pieces of the text, each
    typographed by itself. -/
theorem inline_apply_quotesPaired {s : Text} (h : QuotesPaired s) :
    '"' ∉ RuleSet.inline.apply s ∧
    (RuleSet.inline.apply s).filter isGuillemet =
      (List.range (s.count '"')).map (fun i => if Even i then '«' else '»') ∧
    ∃ first later, s.splitOn '"' = first :: later ∧
      (RuleSet.inline.apply s).splitOnP isGuillemet =
        RuleSet.shared.apply first :: later.map (RuleSet.shared.applyAfter (some '"')) := by
  have hpaired := h.apply_shared
  have hset : RuleSet.inline.apply s = guillemets 0 (RuleSet.shared.apply s) := by
    rw [RuleSet.inline_apply, apply_closingQuote_apply_openingQuote hpaired.left hpaired.right
      hpaired.apart]
    exact hpaired.setQuotes_eq [] _ rfl
  have hcount : (RuleSet.shared.apply s).count '"' = s.count '"' :=
    (RuleSet.edgesKept_applyAfter_shared none s).count '"' (by decide)
  rw [hset]
  refine ⟨not_mem_guillemets 0 _, ?_, ?_⟩
  · rw [filter_guillemets hpaired.left hpaired.right, hcount, List.range_eq_range']
  · obtain ⟨first, later, hpieces⟩ := List.exists_cons_of_ne_nil (List.splitOn_ne_nil '"' s)
    refine ⟨first, later, hpieces, ?_⟩
    rw [splitOnP_guillemets hpaired.left hpaired.right]
    exact RuleSet.splitOn_applyAfter (fun _ => isLocal_of_mem_shared) isSeparator_quote
      (fun other s => not_mem_applyAfter_shared (by decide) other) hpieces

/-- The second quote stands against a letter, so the opening rule takes it first. -/
theorem inline_apply_quotesPaired_against_letter :
    QuotesPaired "x- \"a - b\"cd \"1-2\"".toList ∧
    '"' ∉ RuleSet.inline.apply "x- \"a - b\"cd \"1-2\"".toList ∧
    (RuleSet.inline.apply "x- \"a - b\"cd \"1-2\"".toList).filter isGuillemet =
      "«»«»".toList := by
  have hpaired : QuotesPaired "x- \"a - b\"cd \"1-2\"".toList := by decide +kernel
  obtain ⟨hstraight, hguillemets, -⟩ := inline_apply_quotesPaired hpaired
  exact ⟨hpaired, hstraight, hguillemets.trans (by decide)⟩

end PostMarkup.Typography
