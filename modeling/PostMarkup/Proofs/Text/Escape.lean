import PostMarkup.Text.Escape

namespace PostMarkup

theorem escapeAngles_cons {c : Char} (hc : c ≠ '<' ∧ c ≠ '>') (s : Text) :
    escapeAngles (c :: s) = c :: escapeAngles s := by
  rw [escapeAngles, List.flatMap_cons, ← escapeAngles]
  split
  · exact absurd rfl hc.1
  · exact absurd rfl hc.2
  · rfl

theorem exists_escapeAngles_cons {c : Char} (hc : c = '<' ∨ c = '>') :
    ∃ name ∈ ["lt".toList, "gt".toList],
      ∀ s, escapeAngles (c :: s) = '&' :: (name ++ ';' :: escapeAngles s) := by
  obtain rfl | rfl := hc
  · exact ⟨"lt".toList, by simp, fun s => rfl⟩
  · exact ⟨"gt".toList, by simp, fun s => rfl⟩

theorem escapeAngles_append_of_forall {taken : Text} (htaken : ∀ c ∈ taken, c ≠ '<' ∧ c ≠ '>')
    (s : Text) : escapeAngles (taken ++ s) = taken ++ escapeAngles s := by
  induction taken with
  | nil => rfl
  | cons c taken ih =>
    obtain ⟨hc, htaken⟩ := List.forall_mem_cons.1 htaken
    rw [List.cons_append, escapeAngles_cons hc, ih htaken, List.cons_append]

theorem escapeAngles_of_forall {s : Text} (hs : ∀ c ∈ s, c ≠ '<' ∧ c ≠ '>') : escapeAngles s = s := by
  simpa [escapeAngles] using escapeAngles_append_of_forall hs []

/-- A class of characters that angle brackets and ampersands are in alike begins the text if it begins
    the escaped one. -/
theorem any_head?_escapeAngles {p : Char → Bool} (hless : p '<' = p '&') (hgreater : p '>' = p '&')
    (s : Text) : (escapeAngles s).head?.any p = s.head?.any p := by
  cases s with
  | nil => rfl
  | cons c s =>
    by_cases hc : c = '<' ∨ c = '>'
    · obtain ⟨name, -, hescape⟩ := exists_escapeAngles_cons hc
      rw [hescape]
      obtain rfl | rfl := hc
      · simpa using hless.symm
      · simpa using hgreater.symm
    · rw [escapeAngles_cons (not_or.1 hc)]
      rfl

theorem mem_escapeAngles {c : Char} {s : Text} (hmem : c ∈ escapeAngles s) :
    c ∈ "&lgt;".toList ∨ c ≠ '<' ∧ c ∈ s := by
  obtain ⟨d, hd, hmem⟩ := List.mem_flatMap.1 hmem
  split at hmem
  · exact .inl ((by decide : "&lt;".toList ⊆ "&lgt;".toList) hmem)
  · exact .inl ((by decide : "&gt;".toList ⊆ "&lgt;".toList) hmem)
  · next hangle _ =>
    obtain rfl := List.mem_singleton.1 hmem
    exact .inr ⟨hangle, hd⟩

/-- The two escapes differ in ampersands alone. -/
theorem escapeAngles_singleton {c : Char} (hc : c ≠ '&') : escapeAngles [c] = escapeText [c] := by
  simp only [escapeAngles, escapeText, List.flatMap_cons, List.flatMap_nil]
  split
  · rfl
  · rfl
  · next hless hgreater =>
    split <;> first | rfl | contradiction

theorem escapeText_of_not_mem {s : Text} (hs : '&' ∉ s) : escapeText s = escapeAngles s := by
  induction s with
  | nil => rfl
  | cons c s ih =>
    have hc : c ≠ '&' := fun heq => hs (by simp [heq])
    have hs : '&' ∉ s := fun hmem => hs (List.mem_cons_of_mem c hmem)
    rw [← List.singleton_append, escapeText_append, escapeAngles_append, ih hs,
      escapeAngles_singleton hc]

end PostMarkup
