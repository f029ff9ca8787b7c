import PostMarkup.Proofs.Typography.Agreement
import PostMarkup.Proofs.Typography.Fractions
import PostMarkup.Proofs.Typography.Quotes

namespace PostMarkup.Typography

/-- From somewhere on the text is like this. -/
def Somewhere (p : Text → Prop) (s : Text) : Prop := ∃ front rest, s = front ++ rest ∧ p rest

theorem somewhere_cons {p : Text → Prop} {c : Char} {s : Text} :
    Somewhere p (c :: s) ↔ p (c :: s) ∨ Somewhere p s := by
  constructor
  · rintro ⟨_ | ⟨d, front⟩, rest, heq, hrest⟩
    · exact .inl (heq ▸ hrest)
    · exact .inr ⟨front, rest, (List.cons.inj heq).2, hrest⟩
  · rintro (hhere | ⟨front, rest, rfl, hrest⟩)
    · exact ⟨[], c :: s, rfl, hhere⟩
    · exact ⟨c :: front, rest, rfl, hrest⟩

/-- A hyphen between two digits, where this holds from the second digit on. -/
def HyphenAt (follows : Text → Prop) (s : Text) : Prop :=
  ∃ a rest, s = a :: '-' :: rest ∧ isDecimal a ∧ rest.head?.any isDecimal ∧ follows rest

theorem HyphenAt.mono {p q : Text → Prop} {s : Text} (hpq : ∀ s, p s → q s) (h : HyphenAt p s) :
    HyphenAt q s := by
  obtain ⟨a, rest, rfl, ha, hrest, hp⟩ := h
  exact ⟨a, rest, rfl, ha, hrest, hpq rest hp⟩

theorem hyphenAt_cons_cons {p : Text → Prop} {a b : Char} {s : Text} (ha : isDecimal a)
    (hb : isDecimal b) : HyphenAt p (a :: '-' :: b :: s) ↔ p (b :: s) := by
  constructor
  · rintro ⟨a, rest, heq, -, -, hp⟩
    obtain ⟨-, htail⟩ := List.cons.inj heq
    rwa [(List.cons.inj htail).2]
  · exact fun hp => ⟨a, b :: s, rfl, ha, by simpa using hb, hp⟩

theorem not_hyphenAt_nil {p : Text → Prop} : ¬ HyphenAt p [] := by
  rintro ⟨a, rest, heq, -⟩
  contradiction

theorem not_hyphenAt_of_isDecimal {p : Text → Prop} {c : Char} (hc : isDecimal c = false) (s : Text) :
    ¬ HyphenAt p (c :: s) := by
  rintro ⟨a, rest, heq, ha, -⟩
  obtain ⟨rfl, -⟩ := List.cons.inj heq
  simp [hc] at ha

theorem not_hyphenAt_of_ne {p : Text → Prop} {d : Char} (hd : d ≠ '-') (c : Char) (s : Text) :
    ¬ HyphenAt p (c :: d :: s) := by
  rintro ⟨a, rest, heq, -⟩
  exact hd (List.cons.inj (List.cons.inj heq).2).1

theorem somewhere_hyphenAt_append {p : Text → Prop} {written : Text}
    (hwritten : ∀ c ∈ written, isDecimal c = false) (s : Text) :
    Somewhere (HyphenAt p) (written ++ s) ↔ Somewhere (HyphenAt p) s := by
  induction written with
  | nil => rfl
  | cons c written ih =>
    obtain ⟨hc, hwritten⟩ := List.forall_mem_cons.1 hwritten
    rw [List.cons_append, somewhere_cons, or_iff_right (not_hyphenAt_of_isDecimal hc _), ih hwritten]

/-- A hyphen between two digits, and nothing more. -/
def AnyHyphenAt : Text → Prop := HyphenAt fun _ => True

theorem digitMinus_before (before : Option Char) (s : Text) :
    digitMinus before s = digitMinus none s := by
  unfold digitMinus
  split <;> rfl

theorem apply_digitMinus_of_digits {a b : Char} (ha : isDecimal a) (hb : isDecimal b) (s : Text) :
    Rule.apply digitMinus (a :: '-' :: b :: s) = a :: minusSign ++ b :: Rule.apply digitMinus s := by
  have hfound : digitMinus none (a :: '-' :: b :: s) = some ⟨a :: minusSign ++ [b], 2⟩ := by
    simp [digitMinus, ha, hb]
  rw [Rule.apply, Rule.scan, hfound]
  simp only [Rule.scan, Rule.scan_eq_apply digitMinus_before, List.append_assoc,
    List.singleton_append]

theorem apply_digitMinus_cons {c : Char} {s : Text} (h : ¬ AnyHyphenAt (c :: s)) :
    Rule.apply digitMinus (c :: s) = c :: Rule.apply digitMinus s := by
  have hnone : digitMinus none (c :: s) = none := by
    unfold digitMinus
    split
    · next a b rest heq =>
      refine if_neg fun hdigits => h ?_
      rw [Bool.and_eq_true] at hdigits
      exact ⟨a, b :: rest, heq, hdigits.1, by simpa using hdigits.2, trivial⟩
    · rfl
  rw [Rule.apply, Rule.scan, hnone]
  exact congrArg (c :: ·) (Rule.scan_eq_apply digitMinus_before _ s)

/-- Two digits with a hyphen between them are taken at once, and every other character by itself. -/
theorem hyphen_induction {motive : Text → Prop} (nil : motive [])
    (digits : ∀ a b s, isDecimal a → isDecimal b → motive s → motive (a :: '-' :: b :: s))
    (other : ∀ c s, ¬ AnyHyphenAt (c :: s) → motive s → motive (c :: s)) (s : Text) : motive s := by
  induction hlength : s.length using Nat.strongRecOn generalizing s with
  | _ n ih =>
  subst hlength
  obtain _ | ⟨c, s⟩ := s
  · exact nil
  · by_cases hyphen : AnyHyphenAt (c :: s)
    · obtain ⟨a, rest, heq, ha, hrest, -⟩ := hyphen
      obtain _ | ⟨b, rest⟩ := rest
      · contradiction
      obtain ⟨rfl, rfl⟩ := List.cons.inj heq
      have hshorter : rest.length < (c :: '-' :: b :: rest).length := by
        simp only [List.length_cons]
        omega
      exact digits c b rest ha (by simpa using hrest) (ih rest.length hshorter rest rfl)
    · exact other c s hyphen (ih s.length (by simp) s rfl)

theorem head?_apply_digitMinus (s : Text) : (Rule.apply digitMinus s).head? = s.head? := by
  induction s using hyphen_induction with
  | nil => rfl
  | digits a b s ha hb ih => simp [apply_digitMinus_of_digits ha hb]
  | other c s h ih => simp [apply_digitMinus_cons h]

section

variable {follows : Text → Prop} (hfollows : ∀ s, follows (Rule.apply digitMinus s) ↔ follows s)

include hfollows

/-- A digit that is taken already has a hyphen after it if it had one before. -/
theorem hyphenAt_cons_apply_digitMinus (a : Char) (s : Text) :
    HyphenAt follows (a :: Rule.apply digitMinus s) ↔ HyphenAt follows (a :: s) := by
  have hhyphen (rest : Text) :
      Rule.apply digitMinus ('-' :: rest) = '-' :: Rule.apply digitMinus rest := by
    refine apply_digitMinus_cons ?_
    rintro ⟨b, rest, heq, hb, -⟩
    obtain ⟨rfl, -⟩ := List.cons.inj heq
    exact absurd hb (by decide)
  constructor
  · rintro ⟨b, rest, heq, hb, hrest, hp⟩
    obtain ⟨rfl, hscan⟩ := List.cons.inj heq
    have hhead := head?_apply_digitMinus s
    rw [hscan] at hhead
    obtain ⟨tail, rfl⟩ := List.head?_eq_some_iff.1 hhead.symm
    rw [hhyphen] at hscan
    obtain ⟨-, rfl⟩ := List.cons.inj hscan
    rw [head?_apply_digitMinus] at hrest
    exact ⟨a, tail, rfl, hb, hrest, (hfollows tail).1 hp⟩
  · rintro ⟨b, rest, heq, hb, hrest, hp⟩
    obtain ⟨rfl, rfl⟩ := List.cons.inj heq
    rw [hhyphen]
    exact ⟨a, _, rfl, hb, by rwa [head?_apply_digitMinus], (hfollows rest).2 hp⟩

/-- A hyphen is left between two digits where the first of them has another hyphen and digit before
    it. -/
theorem somewhere_hyphenAt_apply_digitMinus
    (hchain : ∀ a rest, isDecimal a → follows (a :: '-' :: rest)) (s : Text) :
    Somewhere (HyphenAt follows) (Rule.apply digitMinus s) ↔
      Somewhere (HyphenAt (HyphenAt follows)) s := by
  induction s using hyphen_induction with
  | nil => simp [Somewhere, not_hyphenAt_nil]
  | digits a b s ha hb ih =>
    have hsign : ∀ c ∈ minusSign, isDecimal c = false := Text.forall_of_all (by decide)
    have hother : ¬ HyphenAt follows (a :: (minusSign ++ b :: Rule.apply digitMinus s)) :=
      not_hyphenAt_of_ne (by decide) a _
    have hhyphen : ¬ HyphenAt (HyphenAt follows) ('-' :: b :: s) :=
      not_hyphenAt_of_isDecimal (by decide) _
    -- A chain that goes on after the next digit has a hyphen there already.
    have hlonger : HyphenAt (HyphenAt follows) (b :: s) → HyphenAt follows (b :: s) := by
      refine HyphenAt.mono fun rest hrest => ?_
      obtain ⟨c, rest, rfl, hc, -⟩ := hrest
      exact hchain c rest hc
    rw [apply_digitMinus_of_digits ha hb, List.cons_append, somewhere_cons, or_iff_right hother,
      somewhere_hyphenAt_append hsign, somewhere_cons, hyphenAt_cons_apply_digitMinus hfollows, ih,
      somewhere_cons, hyphenAt_cons_cons ha hb, somewhere_cons, or_iff_right hhyphen, somewhere_cons,
      ← or_assoc, or_iff_left_of_imp hlonger]
  | other c s h ih =>
    have hnone {p : Text → Prop} : ¬ HyphenAt p (c :: s) := fun hp => h (hp.mono fun _ _ => trivial)
    rw [apply_digitMinus_cons h, somewhere_cons, hyphenAt_cons_apply_digitMinus hfollows,
      or_iff_right hnone, ih, somewhere_cons, or_iff_right hnone]

end

/-- A hyphen that is left between two digits has a minus sign before the first of them. -/
theorem minusSign_suffix_of_apply_digitMinus {s front rest : Text}
    (hsplit : Rule.apply digitMinus s = front ++ rest) (hrest : AnyHyphenAt rest) :
    minusSign <:+ front := by
  induction s using hyphen_induction generalizing front with
  | nil =>
    obtain ⟨rfl, rfl⟩ := List.nil_eq_append_iff.1 hsplit
    exact absurd hrest not_hyphenAt_nil
  | digits a b s ha hb ih =>
    have hsign : ∀ c ∈ minusSign, isDecimal c = false := Text.forall_of_all (by decide)
    have hwritten : minusSign <:+ a :: minusSign := List.suffix_cons _ _
    rw [apply_digitMinus_of_digits ha hb] at hsplit
    obtain ⟨middle, rfl, hmiddle⟩ | ⟨middle, hfront, rfl⟩ := List.append_eq_append_iff.1 hsplit
    · obtain _ | ⟨c, middle⟩ := middle
      · rwa [List.append_nil]
      · exact (ih (List.cons.inj hmiddle).2).trans
          ((List.suffix_cons c middle).trans (List.suffix_append _ _))
    · obtain _ | ⟨c, middle⟩ := middle
      · rw [List.append_nil] at hfront
        rwa [← hfront]
      · obtain _ | ⟨d, front⟩ := front
        · obtain ⟨rfl, rfl⟩ := List.cons.inj hfront
          exact absurd hrest (not_hyphenAt_of_ne (by decide) _ _)
        · have hmem : c ∈ minusSign := by simp [(List.cons.inj hfront).2]
          exact absurd hrest (not_hyphenAt_of_isDecimal (hsign c hmem) _)
  | other c s h ih =>
    rw [apply_digitMinus_cons h] at hsplit
    obtain _ | ⟨d, front⟩ := front
    · rw [List.nil_append] at hsplit
      rw [← hsplit] at hrest
      exact absurd ((hyphenAt_cons_apply_digitMinus (fun _ => Iff.rfl) c s).1 hrest) h
    · obtain ⟨rfl, htail⟩ := List.cons.inj hsplit
      exact (ih htail).trans (List.suffix_cons _ _)

/-- A mark other than a lone hyphen. -/
structure IsOtherMark (s : Text) : Prop extends IsMark s where
  hyphen : s ≠ ['-']

/-- One such mark in the place of another. -/
def LeavesHyphens (covered written : Text) : Prop := IsOtherMark covered ∧ IsOtherMark written

section

variable {replaces : Text → Text → Prop} (hleaves : ∀ u v, replaces u v → LeavesHyphens u v)
  {follows : Text → Prop} (hfollows : ∀ u v, Replaced replaces u v → follows u → follows v)
  {s t : Text}

include hleaves hfollows

theorem HyphenAt.of_replaced (hs : HyphenAt follows s) (h : Replaced replaces s t) :
    HyphenAt follows t := by
  obtain ⟨a, _ | ⟨b, rest⟩, rfl, ha, hb, hp⟩ := hs
  · contradiction
  have hnonempty : ∀ u v, replaces u v → u ≠ [] := fun u v huv => (hleaves u v huv).1.nonempty
  have hdigit (c : Char) (hc : isDecimal c) (u v : Text) (huv : replaces u v) : c ∉ u :=
    fun hmem => by simp [(hleaves u v huv).1.decimal c hmem] at hc
  have hfirst : Replaced replaces ([a] ++ '-' :: b :: rest) t := h
  obtain ⟨t, rfl, ht⟩ :=
    hfirst.exists_of_append hnonempty (by simpa using hdigit a ha)
  have hsecond : Replaced replaces (['-'] ++ b :: rest) t := ht
  obtain ⟨hyphen, rest', rfl, hhyphen, hrest⟩ :=
    hsecond.exists_of_append_cons (hdigit b (by simpa using hb))
  obtain rfl := hhyphen.eq_singleton hnonempty fun u v huv => (hleaves u v huv).1.hyphen
  exact ⟨a, b :: rest', rfl, ha, hb, hfollows _ _ (.keep b hrest) hp⟩

theorem HyphenAt.exists_of_replaced {front rest : Text} (hs : HyphenAt follows rest)
    (h : Replaced replaces (front ++ rest) t) : ∃ front' rest', t = front' ++ rest' ∧
      HyphenAt follows rest' ∧ Replaced replaces front front' := by
  obtain ⟨a, tail, rfl, ha, -⟩ := id hs
  have hdigit (u v : Text) (huv : replaces u v) : a ∉ u := fun hmem => by
    simp [(hleaves u v huv).1.decimal a hmem] at ha
  obtain ⟨front', tail', rfl, hfront, htail⟩ := h.exists_of_append_cons hdigit
  exact ⟨front', a :: tail', rfl, hs.of_replaced hleaves hfollows (.keep a htail), hfront⟩

end

theorem isMark_of_forall {s : Text} (hnonempty : s ≠ [])
    (hs : ∀ c ∈ s, isBlank c ∨ c ∈ "+-—.\"«»".toList) : IsMark s := by
  have hmarks : ∀ c ∈ "+-—.\"«»".toList, isWord c = false ∧ isDecimal c = false ∧ c ≠ '/' :=
    Text.forall_of_all (by decide +kernel)
  have hslash : isBlank '/' = false := by decide
  have hplain : ∀ c ∈ s, isWord c = false ∧ isDecimal c = false ∧ c ≠ '/' := by
    intro c hc
    obtain hblank | hmark := hs c hc
    · refine ⟨isWord_of_isBlank hblank, isDecimal_of_isBlank hblank, ?_⟩
      rintro rfl
      simp [hslash] at hblank
    · exact hmarks c hmark
  obtain ⟨c, s, rfl⟩ := List.exists_cons_of_ne_nil hnonempty
  exact ⟨hnonempty, by simpa using (hplain c (by simp)).1, fun d hd => (hplain d hd).2.1,
    fun hmem => (hplain '/' hmem).2.2 rfl⟩

theorem leavesHyphens_of_setSign {covered written : Text} (h : SetSign covered written) :
    LeavesHyphens covered written := by
  have hvisible : isBlank '-' = false ∧ isBlank '/' = false := by decide
  have hinert := h.isInert
  constructor
  · have hmarks : typedSigns ⊆ "+-—.\"«»".toList := by decide
    obtain ⟨c, hc, -⟩ := h.typed
    refine ⟨isMark_of_forall (List.ne_nil_of_mem hc) fun d hd =>
      (h.covers d hd).imp_right fun htyped => hmarks htyped, ?_⟩
    cases h with
    | plusMinus => decide
    | ellipsis more => simp [List.replicate_succ]
    | dash hblanks hnonempty htyped hblank =>
      intro heq
      have hlast := congrArg List.getLast? heq
      rw [List.getLast?_concat] at hlast
      obtain rfl := Option.some.inj hlast
      simp [hvisible.1] at hblank
  · obtain ⟨tail, htail⟩ := List.head?_eq_some_iff.1 hinert.head
    have hampersand : isWord '&' = false := by decide
    have hnames : ∀ name ∈ dialectNames, '/' ∉ reference name := by decide
    refine ⟨⟨by simp [htail], by simp [htail, hampersand], hinert.decimal, fun hmem => ?_⟩,
      by simp [htail]⟩
    obtain ⟨names, blanks, -, hdialect, -, hblanks, rfl⟩ := h.writes
    obtain hmem | hmem := List.mem_append.1 hmem
    · obtain ⟨name, hname, hmem⟩ := List.mem_flatMap.1 hmem
      exact hnames name (hdialect hname) hmem
    · simpa [hvisible.2] using hblanks '/' hmem

theorem leavesHyphens_hyphen {blank : Char} (hblank : isBlank blank) :
    LeavesHyphens ['-', blank] [' ', '-', blank] := by
  have hspace : isBlank ' ' := by decide
  refine ⟨⟨isMark_of_forall (by simp) ?_, by simp⟩, isMark_of_forall (by simp) ?_, by simp⟩
  · simp [hblank]
  · simp [hblank, hspace]

/-- The rules before the one for minus signs. -/
def RuleSet.spacing : RuleSet := hyphenSpacing :: RuleSet.dialect

theorem RuleSet.shared_apply (s : Text) :
    RuleSet.shared.apply s = Rule.apply digitMinus (RuleSet.spacing.apply s) := rfl

theorem replaces_spacing {rule : Rule} (hrule : rule ∈ RuleSet.spacing) :
    rule.Replaces LeavesHyphens := by
  obtain rfl | hdialect := List.mem_cons.1 hrule
  · exact replaces_hyphenSpacing fun c blank hblank => .keep c (.single (leavesHyphens_hyphen hblank))
  · exact replaces_of_mem_dialect (fun _ _ => leavesHyphens_of_setSign) hdialect

/-- Such rules leave every hyphen between two digits, and bring no other there. -/
theorem RuleSet.somewhere_hyphenAt_apply {rules : RuleSet}
    (hrules : ∀ rule ∈ rules, rule.Replaces LeavesHyphens) {follows : Text → Prop}
    (hfollows : ∀ u v, Replaced LeavesHyphens u v → follows u → follows v) (s : Text) :
    Somewhere (HyphenAt follows) (rules.apply s) ↔ Somewhere (HyphenAt follows) s := by
  have hstep {s t : Text} (h : Replaced LeavesHyphens s t) :
      Somewhere (HyphenAt follows) s → Somewhere (HyphenAt follows) t := by
    rintro ⟨front, rest, rfl, hrest⟩
    obtain ⟨front', rest', rfl, hrest', -⟩ :=
      hrest.exists_of_replaced (fun _ _ => id) hfollows h
    exact ⟨front', rest', rfl, hrest'⟩
  refine RuleSet.applyAfter_induction
    (fun s t => Somewhere (HyphenAt follows) t ↔ Somewhere (HyphenAt follows) s) (fun _ => Iff.rfl)
    (fun _ _ _ h hnext => hnext.trans h) (fun rule hrule s => ?_) s
  have hreplaced : Replaced LeavesHyphens s (rule.scan none 0 s) := (hrules rule hrule).apply s
  exact ⟨hstep (hreplaced.symm.mono fun _ _ => And.symm), hstep hreplaced⟩

/-- Of the hyphens between two digits those are left that another stands before. -/
theorem somewhere_hyphenAt_shared {follows : Text → Prop}
    (hfollows : ∀ u v, Replaced (fun u v => IsMark u ∧ IsMark v) u v → follows u → follows v)
    (hchain : ∀ a rest, isDecimal a → follows (a :: '-' :: rest)) (s : Text) :
    Somewhere (HyphenAt follows) (RuleSet.shared.apply s) ↔
      Somewhere (HyphenAt (HyphenAt follows)) s := by
  have hspacing (u v : Text) (h : Replaced LeavesHyphens u v) : follows u → follows v :=
    hfollows u v (h.mono fun _ _ huv => ⟨huv.1.toIsMark, huv.2.toIsMark⟩)
  have hminus : Rule.Replaces digitMinus fun u v => IsMark u ∧ IsMark v :=
    replaces_digitMinus ⟨isMark_of_forall (by simp) (by simp),
      ⟨by decide, by decide, Text.forall_of_all (by decide), by decide⟩⟩
  have hkept (s : Text) : follows (Rule.apply digitMinus s) ↔ follows s :=
    ⟨hfollows _ _ ((hminus.apply s).symm.mono fun _ _ => And.symm), hfollows _ _ (hminus.apply s)⟩
  rw [RuleSet.shared_apply, somewhere_hyphenAt_apply_digitMinus hkept hchain]
  exact RuleSet.somewhere_hyphenAt_apply (fun _ => replaces_spacing)
    (fun u v h hu => hu.of_replaced (fun _ _ => id) hspacing h) s

end PostMarkup.Typography
