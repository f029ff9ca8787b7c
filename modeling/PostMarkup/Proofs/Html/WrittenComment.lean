import PostMarkup.Html.Writing
import PostMarkup.Proofs.Text.Cutting

namespace PostMarkup.Html

/-- The content of a comment as reading gives it. -/
structure IsCommentContent (content : Text) : Prop where
  start : ¬ ['>'] <+: content ∧ ¬ "->".toList <+: content
  mark : ¬ "-->".toList <:+: content ∧ ¬ "--!>".toList <:+: content
  null : '\x00' ∉ content
  noReturn : '\r' ∉ content

theorem visible_eq_iff {c d : Char} (hnull : d ≠ '\x00') (hreplacement : d ≠ Reference.replacementCharacter) :
    visible c = d ↔ c = d := by
  unfold visible
  split
  · next hc =>
    subst hc
    exact ⟨fun heq => absurd heq.symm hreplacement, fun heq => absurd heq.symm hnull⟩
  · rfl

theorem null_not_mem_map_visible (s : Text) : '\x00' ∉ s.map visible := by
  rw [List.mem_map]
  rintro ⟨c, -, hc⟩
  unfold visible at hc
  split at hc
  · exact absurd hc (by decide)
  · contradiction

theorem not_mem_map_visible {c : Char} (hnull : c ≠ '\x00')
    (hreplacement : c ≠ Reference.replacementCharacter) {s : Text} (hs : c ∉ s) :
    c ∉ s.map visible := by
  rw [List.mem_map]
  rintro ⟨d, hd, heq⟩
  rw [visible_eq_iff hnull hreplacement] at heq
  exact hs (heq ▸ hd)

/-- Reading makes no beginning of a mark. -/
theorem prefix_of_prefix_map_visible {mark s : Text}
    (hnull : '\x00' ∉ mark) (hreplacement : Reference.replacementCharacter ∉ mark)
    (hleads : mark <+: s.map visible) : mark <+: s := by
  induction mark generalizing s with
  | nil => exact List.nil_prefix
  | cons m mark ih =>
    obtain ⟨hm, hnull⟩ := not_or.1 (mt List.mem_cons.2 hnull)
    obtain ⟨hother, hreplacement⟩ := not_or.1 (mt List.mem_cons.2 hreplacement)
    cases s with
    | nil => exact absurd hleads (by simp)
    | cons c s =>
      rw [List.map_cons, List.cons_prefix_cons] at hleads
      obtain ⟨heq, hleads⟩ := hleads
      rw [(visible_eq_iff (Ne.symm hm) (Ne.symm hother)).1 heq.symm, List.cons_prefix_cons]
      exact ⟨rfl, ih hnull hreplacement hleads⟩

theorem commentBody_isPrefix (s : Text) : (commentBody s).1 <+: s.map visible := by
  fun_induction commentBody s with
  | case7 c s _ _ _ _ _ body rest hbody ih =>
    rw [hbody] at ih
    rw [List.map_cons, List.cons_prefix_cons]
    exact ⟨rfl, ih⟩
  | _ => exact List.nil_prefix

/-- The body of a comment ends before the first end mark of either kind. -/
theorem mark_of_commentBody (s : Text) :
    ¬ "-->".toList <:+: (commentBody s).1 ∧ ¬ "--!>".toList <:+: (commentBody s).1 := by
  have hnil (mark : Text) (hmark : mark ≠ []) : ¬ mark <:+: [] := by simpa using hmark
  fun_induction commentBody s with
  | case7 c s hclose hbang _ _ _ body rest hbody ih =>
    have hleads : visible c :: body <+: (c :: s).map visible := by
      have hbodyPrefix := commentBody_isPrefix s
      rw [hbody] at hbodyPrefix
      rwa [List.map_cons, List.cons_prefix_cons, and_iff_right rfl]
    rw [hbody] at ih
    constructor
    · rw [List.infix_cons_iff, not_or]
      refine ⟨fun hmark => ?_, ih.1⟩
      obtain ⟨tail, heq⟩ := prefix_of_prefix_map_visible (by decide) (by decide) (hmark.trans hleads)
      obtain ⟨rfl, rfl⟩ := List.cons.inj heq
      exact hclose _ rfl rfl
    · rw [List.infix_cons_iff, not_or]
      refine ⟨fun hmark => ?_, ih.2⟩
      obtain ⟨tail, heq⟩ := prefix_of_prefix_map_visible (by decide) (by decide) (hmark.trans hleads)
      obtain ⟨rfl, rfl⟩ := List.cons.inj heq
      exact hbang _ rfl rfl
  | _ => exact ⟨hnil _ (by decide), hnil _ (by decide)⟩

theorem isCommentContent_nil : IsCommentContent [] := by
  constructor <;> simp

theorem isCommentContent_of_commentBody {s : Text} (hs : '\r' ∉ s) (hangle : ∀ t, s ≠ '>' :: t)
    (hhyphen : ∀ t, s ≠ '-' :: '>' :: t) : IsCommentContent (commentBody s).1 where
  start := by
    have hleads := commentBody_isPrefix s
    constructor
    · intro hstart
      obtain ⟨tail, rfl⟩ := prefix_of_prefix_map_visible (by decide) (by decide) (hstart.trans hleads)
      exact hangle tail rfl
    · intro hstart
      obtain ⟨tail, rfl⟩ := prefix_of_prefix_map_visible (by decide) (by decide) (hstart.trans hleads)
      exact hhyphen tail rfl
  mark := mark_of_commentBody s
  null hmem := null_not_mem_map_visible s ((commentBody_isPrefix s).subset hmem)
  noReturn hmem :=
    not_mem_map_visible (by decide) (by decide) hs ((commentBody_isPrefix s).subset hmem)

/-- Every end mark holds a `>`, so content without one is in order. -/
theorem isCommentContent_takeWhile {s : Text} (hs : '\r' ∉ s) :
    IsCommentContent ((s.takeWhile (· ≠ '>')).map visible) := by
  have hangle : '>' ∉ (s.takeWhile (· ≠ '>')).map visible := by
    apply not_mem_map_visible (by decide) (by decide)
    intro hmem
    simpa using Text.of_mem_takeWhile hmem
  have hreturn : '\r' ∉ s.takeWhile (· ≠ '>') := fun hmem => hs ((List.takeWhile_prefix _).subset hmem)
  refine ⟨⟨?_, ?_⟩, ⟨?_, ?_⟩, null_not_mem_map_visible _,
    not_mem_map_visible (by decide) (by decide) hreturn⟩
  · exact fun hstart => hangle (hstart.subset (by simp))
  · exact fun hstart => hangle (hstart.subset (by simp))
  · exact fun hmark => hangle (hmark.subset (by simp))
  · exact fun hmark => hangle (hmark.subset (by simp))

theorem commentBody_append_visible {content : Text} (hclose : ¬ "-->".toList <:+: content)
    (hbang : ¬ "--!>".toList <:+: content) (s : Text) :
    commentBody (content ++ '-' :: '-' :: '>' :: s) = (content.map visible, s) := by
  induction content with
  | nil => rw [List.nil_append, commentBody, List.map_nil]
  | cons c content ih =>
    rw [List.infix_cons_iff, not_or] at hclose hbang
    rw [List.cons_append, commentBody, ih hclose.2 hbang.2, List.map_cons]
    · rintro t rfl heq
      obtain _ | ⟨d, _ | ⟨e, content⟩⟩ := content <;> simp_all
    · rintro t rfl heq
      obtain _ | ⟨d, _ | ⟨e, _ | ⟨f, content⟩⟩⟩ := content <;> simp_all
    all_goals
      rintro - heq
      have hlength := congrArg List.length heq
      simp only [List.length_append, List.length_cons, List.length_nil] at hlength
      omega

/-- A comment ends at its end mark, whatever characters it holds. -/
theorem readComment_append_visible {content : Text}
    (hstart : ¬ ['>'] <+: content ∧ ¬ "->".toList <+: content)
    (hmark : ¬ "-->".toList <:+: content ∧ ¬ "--!>".toList <:+: content) (s : Text) :
    readComment (content ++ '-' :: '-' :: '>' :: s) = ⟨[.comment (content.map visible)], s⟩ := by
  have hbody := commentBody_append_visible hmark.1 hmark.2 s
  unfold readComment
  split
  · next heq =>
    obtain _ | ⟨c, content⟩ := content
    · simp at heq
    · exact absurd ⟨content, by simp_all⟩ hstart.1
  · next heq =>
    obtain _ | ⟨c, _ | ⟨d, content⟩⟩ := content
    · simp at heq
    · simp at heq
    · exact absurd ⟨content, by simp_all⟩ hstart.2
  · rw [hbody]

theorem map_visible_of_not_mem {s : Text} (hs : '\x00' ∉ s) : s.map visible = s := by
  refine (List.map_congr_left fun c hc => ?_).trans (List.map_id s)
  exact if_neg fun heq : c = '\x00' => hs (heq ▸ hc)

/-- A written comment is read back, and nothing beyond it. -/
theorem readComment_append {content : Text} (h : IsCommentContent content) (s : Text) :
    readComment (content ++ '-' :: '-' :: '>' :: s) = ⟨[.comment content], s⟩ := by
  rw [readComment_append_visible h.start h.mark, map_visible_of_not_mem h.null]

end PostMarkup.Html
