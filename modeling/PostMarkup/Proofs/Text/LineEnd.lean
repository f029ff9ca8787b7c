import PostMarkup.Text.Basic

namespace PostMarkup

theorem normaliseLineEnds_cons {c : Char} (hc : c ≠ '\r') (s : Text) :
    normaliseLineEnds (c :: s) = c :: normaliseLineEnds s := by
  rw [normaliseLineEnds]
  all_goals
    intros
    contradiction

theorem normaliseLineEnds_return {s : Text} (hs : s.head? ≠ some '\n') :
    normaliseLineEnds ('\r' :: s) = '\n' :: normaliseLineEnds s := by
  cases s with
  | nil => rfl
  | cons c s =>
    have hc : c ≠ '\n' := by simpa using hs
    rw [normaliseLineEnds]
    intro t heq
    exact hc (List.cons.inj heq).1

theorem normaliseLineEnds_append_of_not_mem {s : Text} (hs : '\r' ∉ s) (t : Text) :
    normaliseLineEnds (s ++ t) = s ++ normaliseLineEnds t := by
  induction s with
  | nil => rfl
  | cons c s ih =>
    have hc : c ≠ '\r' := fun heq => hs (heq ▸ List.mem_cons_self)
    rw [List.cons_append, normaliseLineEnds_cons hc, ih fun hmem => hs (by simp [hmem])]
    rfl

theorem normaliseLineEnds_of_not_mem {s : Text} (hs : '\r' ∉ s) : normaliseLineEnds s = s := by
  simpa [normaliseLineEnds] using normaliseLineEnds_append_of_not_mem hs []

theorem normaliseLineEnds_append {t : Text} (ht : t.head? ≠ some '\n') (s : Text) :
    normaliseLineEnds (s ++ t) = normaliseLineEnds s ++ normaliseLineEnds t := by
  fun_induction normaliseLineEnds s with
  | case1 => rfl
  | case2 s ih =>
    rw [List.cons_append, List.cons_append, normaliseLineEnds, ih]
    rfl
  | case3 s hs ih =>
    have hhead : (s ++ t).head? ≠ some '\n' := by
      cases s with
      | nil => exact ht
      | cons c s => simpa using fun heq : c = '\n' => hs s (heq ▸ rfl)
    rw [List.cons_append, normaliseLineEnds_return hhead, ih]
    rfl
  | case4 c s _ hreturn ih =>
    rw [List.cons_append, normaliseLineEnds_cons (fun heq => hreturn heq), ih]
    rfl

/-- Normalising brings in no character but line feeds. -/
theorem mem_of_mem_normaliseLineEnds {c : Char} (hc : c ≠ '\n') {s : Text}
    (hmem : c ∈ normaliseLineEnds s) : c ∈ s := by
  fun_induction normaliseLineEnds s with
  | case1 => exact hmem
  | case2 s ih =>
    have hrest := ih (by simpa [hc] using hmem)
    simp [hrest]
  | case3 s _ ih =>
    have hrest := ih (by simpa [hc] using hmem)
    simp [hrest]
  | case4 d s _ _ ih =>
    obtain rfl | hmem := List.mem_cons.1 hmem
    · simp
    · simp [ih hmem]

theorem exists_of_normaliseLineEnds_eq_cons {c : Char} (hc : c ≠ '\n') {s t : Text}
    (heq : normaliseLineEnds s = c :: t) : ∃ rest, s = c :: rest ∧ normaliseLineEnds rest = t := by
  unfold normaliseLineEnds at heq
  split at heq
  · contradiction
  · exact absurd (List.cons.inj heq).1 (Ne.symm hc)
  · exact absurd (List.cons.inj heq).1 (Ne.symm hc)
  · next d s _ _ =>
    obtain ⟨rfl, hrest⟩ := List.cons.inj heq
    exact ⟨s, rfl, hrest⟩

/-- Normalising line ends makes no beginning of a mark. -/
theorem prefix_of_prefix_normaliseLineEnds {mark s : Text} (hmark : '\n' ∉ mark)
    (hleads : mark <+: normaliseLineEnds s) : mark <+: s := by
  induction mark generalizing s with
  | nil => exact List.nil_prefix
  | cons m mark ih =>
    obtain ⟨hm, hmark⟩ := not_or.1 (mt List.mem_cons.2 hmark)
    obtain ⟨tail, heq⟩ := hleads
    obtain ⟨rest, rfl, hrest⟩ := exists_of_normaliseLineEnds_eq_cons (Ne.symm hm) heq.symm
    rw [List.cons_prefix_cons]
    exact ⟨rfl, ih hmark ⟨tail, hrest.symm⟩⟩

theorem infix_of_infix_normaliseLineEnds {mark s : Text} (hmark : '\n' ∉ mark)
    (hheld : mark <:+: normaliseLineEnds s) : mark <:+: s := by
  have hlead {t : Text} (hleads : mark <+: normaliseLineEnds t) : mark <:+: t :=
    (prefix_of_prefix_normaliseLineEnds hmark hleads).isInfix
  fun_induction normaliseLineEnds s with
  | case1 => exact hheld
  | case2 s ih =>
    obtain hleads | hlater := List.infix_cons_iff.1 hheld
    · exact hlead (by rwa [normaliseLineEnds])
    · exact (ih hlater).trans ((List.suffix_cons _ s).trans (List.suffix_cons _ _)).isInfix
  | case3 s hs ih =>
    obtain hleads | hlater := List.infix_cons_iff.1 hheld
    · exact hlead (by rwa [normaliseLineEnds]; exact hs)
    · exact (ih hlater).trans (List.suffix_cons _ s).isInfix
  | case4 c s hcrlf hreturn ih =>
    obtain hleads | hlater := List.infix_cons_iff.1 hheld
    · exact hlead (by rwa [normaliseLineEnds_cons fun heq => hreturn heq])
    · exact (ih hlater).trans (List.suffix_cons c s).isInfix

/-- An escape that leaves line ends alone commutes with normalising them. -/
theorem normaliseLineEnds_flatMap {escape : Char → Text} (hreturn : escape '\r' = ['\r'])
    (hfeed : escape '\n' = ['\n'])
    (hother : ∀ c, c ≠ '\r' → c ≠ '\n' → '\r' ∉ escape c ∧ ∃ d t, escape c = d :: t ∧ d ≠ '\n')
    (s : Text) :
    normaliseLineEnds (s.flatMap escape) = (normaliseLineEnds s).flatMap escape := by
  fun_induction normaliseLineEnds s with
  | case1 => rfl
  | case2 s ih => simp [hreturn, hfeed, normaliseLineEnds, ih]
  | case3 s hs ih =>
    have hhead : (s.flatMap escape).head? ≠ some '\n' := by
      cases s with
      | nil => simp
      | cons c s =>
        have hc : c ≠ '\n' := fun heq => hs s (heq ▸ rfl)
        by_cases hcr : c = '\r'
        · simp [hcr, hreturn]
        · obtain ⟨-, d, t, heq, hd⟩ := hother c hcr hc
          simpa [heq] using hd
    rw [List.flatMap_cons, hreturn, List.singleton_append, normaliseLineEnds_return hhead, ih,
      List.flatMap_cons, hfeed, List.singleton_append]
  | case4 c s hcrlf hcr ih =>
    have hc : c ≠ '\r' := fun heq => hcr heq
    have hescape : '\r' ∉ escape c := by
      by_cases hlf : c = '\n'
      · simp [hlf, hfeed]
      · exact (hother c hc hlf).1
    rw [List.flatMap_cons, normaliseLineEnds_append_of_not_mem hescape, ih, List.flatMap_cons]

end PostMarkup
