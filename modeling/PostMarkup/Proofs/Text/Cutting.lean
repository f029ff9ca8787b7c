import PostMarkup.Text.Basic

namespace PostMarkup.Text

/-- A run that one more character ends is taken whole, whatever follows. -/
theorem takeWhile_append_stop {p : Char → Bool} {run : Text} {stop : Char}
    (hrun : ∀ c ∈ run, p c) (hstop : p stop = false) (s : Text) :
    (run ++ stop :: s).takeWhile p = run := by
  rw [List.takeWhile_append_of_pos hrun, List.takeWhile_cons_of_neg (by simp [hstop]),
    List.append_nil]

theorem dropWhile_append_stop {p : Char → Bool} {run : Text} {stop : Char}
    (hrun : ∀ c ∈ run, p c) (hstop : p stop = false) (s : Text) :
    (run ++ stop :: s).dropWhile p = stop :: s := by
  rw [List.dropWhile_append_of_pos hrun, List.dropWhile_cons_of_neg (by simp [hstop])]

/-- A law of the characters of a fixed text, checked on each of them. -/
theorem forall_of_all {p : Char → Prop} [DecidablePred p] {s : Text}
    (hall : s.all (fun c => decide (p c)) = true) : ∀ c ∈ s, p c := by
  simpa using hall

theorem of_mem_takeWhile {p : Char → Bool} {s : Text} {c : Char} (hmem : c ∈ s.takeWhile p) :
    p c := by
  have hall := List.all_takeWhile (l := s) (p := p)
  exact List.all_eq_true.1 hall c hmem

section

variable {p : Char → Bool} {stop : Text} (hstop : ∀ c ∈ stop.head?, p c = false)

include hstop

/-- A run does not go on into text that begins with no character of its kind. -/
theorem takeWhile_append_of_head? (s : Text) : (s ++ stop).takeWhile p = s.takeWhile p := by
  induction s with
  | nil => cases stop <;> simp_all
  | cons c s ih => by_cases hc : p c <;> simp [hc, ih]

theorem dropWhile_append_of_head? (s : Text) : (s ++ stop).dropWhile p = s.dropWhile p ++ stop := by
  induction s with
  | nil => cases stop <;> simp_all
  | cons c s ih => by_cases hc : p c <;> simp [hc, ih]

/-- A lead made of one kind of characters is not completed by text that begins with another. -/
theorem after?_append_of_head? {lead : Text} (hlead : ∀ c ∈ lead, p c) (s : Text) :
    after? lead (s ++ stop) = (after? lead s).map (· ++ stop) := by
  induction lead generalizing s with
  | nil => rfl
  | cons l lead ih =>
    obtain ⟨hl, hlead⟩ := List.forall_mem_cons.1 hlead
    cases s with
    | nil =>
      cases stop with
      | nil => rfl
      | cons c stop =>
        have hne : l ≠ c := by
          rintro rfl
          simp [hstop l rfl] at hl
        simp [after?, hne]
    | cons c s => by_cases hhead : l = c <;> simp [after?, hhead, ih hlead]

end

/-- Where case does not count, a lead of one kind of characters is not completed by what begins with
    another either. -/
theorem afterAnyCase?_append_of_head? {p : Char → Bool} {lead stop : Text} (hlead : ∀ c ∈ lead, p c)
    (hstop : ∀ c ∈ stop.head?, p c.toLower = false) (s : Text) :
    afterAnyCase? lead (s ++ stop) = (afterAnyCase? lead s).map (· ++ stop) := by
  induction lead generalizing s with
  | nil => rfl
  | cons l lead ih =>
    obtain ⟨hl, hlead⟩ := List.forall_mem_cons.1 hlead
    cases s with
    | nil =>
      cases stop with
      | nil => rfl
      | cons c stop =>
        have hne : l ≠ c.toLower := by
          rintro rfl
          simp [hstop c rfl] at hl
        simp [afterAnyCase?, hne]
    | cons c s => by_cases hhead : l = c.toLower <;> simp [afterAnyCase?, hhead, ih hlead]

theorem after?_append (lead s : Text) : after? lead (lead ++ s) = some s :=
  after?_eq_some_iff.2 rfl

/-- Whether a text begins with a lead is decided within the length of the lead. -/
theorem after?_append_eq_none {lead s t : Text} (hlength : lead.length ≤ s.length)
    (hnone : after? lead s = none) : after? lead (s ++ t) = none := by
  induction lead generalizing s with
  | nil => simp [after?] at hnone
  | cons l lead ih =>
    cases s with
    | nil => simp at hlength
    | cons c s =>
      by_cases hhead : l = c
      · simp only [after?, hhead, ↓reduceIte, List.cons_append] at hnone ⊢
        exact ih (by simpa using hlength) hnone
      · simp [after?, hhead]

/-- A lead that holds some character at its end at most does not reach beyond that character. -/
theorem after?_isSome_exchange {lead s t : Text} {stop : Char} (hstop : stop ∉ lead.dropLast)
    (u : Text) :
    (after? lead (s ++ stop :: t)).isSome = (after? lead (s ++ stop :: u)).isSome := by
  induction lead generalizing s with
  | nil => simp [after?]
  | cons l lead ih =>
    have htail : stop ∉ lead.dropLast := fun hmem => hstop (List.mem_of_mem_tail (by
      cases lead with
      | nil => simp at hmem
      | cons d lead => simpa using hmem))
    cases s with
    | nil =>
      by_cases hhead : l = stop
      · obtain rfl : lead = [] := by
          cases lead with
          | nil => rfl
          | cons d lead => exact absurd (by simp [hhead]) hstop
        simp [after?, hhead]
      · simp [after?, hhead]
    | cons c s =>
      by_cases hhead : l = c
      · simpa [after?, hhead] using ih htail
      · simp [after?, hhead]

/-- A lead that stands nowhere at the head of a text is not brought about by what follows a
    character that ends it. -/
theorem ne_append_exchange (lead : Text) {s t : Text} {stop : Char} (hstop : stop ∉ lead.dropLast)
    (hne : ∀ v, s ++ stop :: t ≠ lead ++ v) (u v : Text) : s ++ stop :: u ≠ lead ++ v := by
  intro heq
  have hsome : (after? lead (s ++ stop :: t)).isSome := by
    rw [after?_isSome_exchange hstop u, heq, after?_append]
    rfl
  obtain ⟨rest, hrest⟩ := Option.isSome_iff_exists.1 hsome
  exact hne rest (after?_eq_some_iff.1 hrest)

/-- A lead that agrees but for the case of letters is found again before any other text. -/
theorem exists_of_afterAnyCase? {lead s rest : Text} (hafter : afterAnyCase? lead s = some rest) :
    ∃ found, s = found ++ rest ∧ ∀ t, afterAnyCase? lead (found ++ t) = some t := by
  induction lead generalizing s with
  | nil =>
    obtain rfl := Option.some.inj hafter
    exact ⟨[], rfl, fun _ => rfl⟩
  | cons l lead ih =>
    cases s with
    | nil => contradiction
    | cons c s =>
      by_cases hhead : l = c.toLower
      · obtain ⟨found, rfl, hfound⟩ := ih (by simpa [afterAnyCase?, hhead] using hafter)
        exact ⟨c :: found, rfl, fun t => by simp [afterAnyCase?, hhead, hfound]⟩
      · simp [afterAnyCase?, hhead] at hafter

theorem upTo?_append (mark s : Text) : upTo? mark (mark ++ s) = some ([], s) := by
  have hafter := after?_append mark s
  cases hwhole : mark ++ s with
  | nil =>
    obtain ⟨rfl, rfl⟩ := List.append_eq_nil_iff.1 hwhole
    rfl
  | cons c t =>
    rw [hwhole] at hafter
    simp only [upTo?, hafter]

theorem upTo?_cons {mark : Text} {c : Char} {s : Text} (hnone : after? mark (c :: s) = none) :
    upTo? mark (c :: s) = (upTo? mark s).map fun cut => (c :: cut.1, cut.2) := by
  simp only [upTo?, hnone]

/-- The first occurrence of a mark is found by looking no further than its end. -/
theorem upTo?_exchange {mark s before rest : Text} (hcut : upTo? mark s = some (before, rest))
    (t : Text) : upTo? mark (before ++ mark ++ t) = some (before, t) := by
  induction s generalizing before with
  | nil =>
    simp only [upTo?, Option.map_eq_some_iff, Prod.mk.injEq] at hcut
    obtain ⟨tail, -, rfl, -⟩ := hcut
    exact upTo?_append mark t
  | cons c s ih =>
    cases hhead : after? mark (c :: s) with
    | some tail =>
      simp only [upTo?, hhead, Option.some.injEq, Prod.mk.injEq] at hcut
      obtain ⟨rfl, -⟩ := hcut
      exact upTo?_append mark t
    | none =>
      rw [upTo?_cons hhead] at hcut
      simp only [Option.map_eq_some_iff, Prod.mk.injEq] at hcut
      obtain ⟨cut, hrest, rfl, rfl⟩ := hcut
      have hhere : after? mark (c :: (cut.1 ++ mark)) = none := by
        refine Option.eq_none_iff_forall_ne_some.2 fun tail htail => ?_
        have hfound : after? mark (c :: s) = some (tail ++ cut.2) := by
          rw [append_of_upTo? hrest, after?_eq_some_iff, ← List.append_assoc,
            ← after?_eq_some_iff.1 htail, List.cons_append]
        simp [hfound] at hhead
      have hlength : mark.length ≤ (c :: (cut.1 ++ mark)).length := by
        simp only [List.length_cons, List.length_append]
        omega
      have hafter : after? mark (c :: (cut.1 ++ mark ++ t)) = none :=
        after?_append_eq_none hlength hhere
      simp only [List.cons_append]
      rw [upTo?_cons hafter, ih hrest]
      rfl

/-- A body that ends before the first occurrence of its mark is cut off there. The last character of
    the mark is its only one of that kind, so no occurrence begins in the body and ends in the
    mark. -/
theorem upTo?_of_not_infix {body mark : Text} {last : Char} (hlast : last ∉ mark)
    (hbody : ¬ (mark ++ [last]) <:+: body) (s : Text) :
    upTo? (mark ++ [last]) (body ++ (mark ++ [last]) ++ s) = some (body, s) := by
  induction body with
  | nil => exact upTo?_append (mark ++ [last]) s
  | cons c body ih =>
    have hrest := ih fun hoccurs => hbody (hoccurs.trans (List.suffix_cons c body).isInfix)
    have hnone : after? (mark ++ [last]) (c :: (body ++ (mark ++ [last]) ++ s)) = none := by
      refine Option.eq_none_iff_forall_ne_some.2 fun tail htail => ?_
      have heq := after?_eq_some_iff.1 htail
      rw [List.append_assoc, ← List.cons_append] at heq
      obtain ⟨extra, hmark, hextra⟩ | ⟨extra, hwhole, -⟩ := List.append_eq_append_iff.1 heq
      · obtain rfl | ⟨start, d, rfl⟩ := List.eq_nil_or_concat extra
        · exact hbody ⟨[], [], by simpa using hmark⟩
        · -- The occurrence ends inside the closing mark, before the last character of that mark.
          rw [List.concat_eq_append] at hmark hextra
          rw [← List.append_assoc] at hmark
          obtain ⟨hmark, hd⟩ := List.append_inj' hmark rfl
          obtain rfl : last = d := by simpa using hd
          have hlength : (start ++ [last]).length ≤ mark.length := by
            have hlength := congrArg List.length hmark
            simp only [List.length_append, List.length_cons, List.length_nil] at hlength ⊢
            omega
          have hmarkPrefix : mark <+: mark ++ [last] ++ s := ⟨[last] ++ s, by simp⟩
          have hstart := List.prefix_of_prefix_length_le ⟨tail, hextra.symm⟩ hmarkPrefix hlength
          exact hlast (hstart.subset (by simp))
      · exact hbody ⟨[], extra, by simp [hwhole]⟩
    simp only [List.cons_append]
    rw [upTo?_cons hnone, hrest]
    rfl

theorem upTo?_quote {quote : Char} {body : Text} (hbody : quote ∉ body) (s : Text) :
    upTo? [quote] (body ++ quote :: s) = some (body, s) := by
  have hcut : upTo? ([] ++ [quote]) (body ++ ([] ++ [quote]) ++ s) = some (body, s) :=
    upTo?_of_not_infix (by simp) (fun hoccurs => hbody (hoccurs.subset (by simp))) s
  simpa using hcut

theorem dropByteOrderMark_of_head? {s : Text} (hhead : s.head? ≠ some '\ufeff') :
    s.dropByteOrderMark = s := by
  cases s with
  | nil => rfl
  | cons c s => simpa [dropByteOrderMark] using hhead

theorem dropByteOrderMark_append {t : Text} (ht : t.head? ≠ some '\ufeff') (s : Text) :
    (s ++ t).dropByteOrderMark = s.dropByteOrderMark ++ t := by
  cases s with
  | nil => exact dropByteOrderMark_of_head? ht
  | cons c s =>
    rw [List.cons_append, dropByteOrderMark, dropByteOrderMark]
    split <;> rfl

/-- The mark takes three bytes. -/
theorem byteSize_dropByteOrderMark (s : Text) :
    s.dropByteOrderMark.byteSize = s.byteSize - if s.head? = some '\ufeff' then 3 else 0 := by
  cases s with
  | nil => rfl
  | cons c s =>
    by_cases hmark : c = '\ufeff'
    · subst hmark
      have hsize : '\ufeff'.utf8Size = 3 := by decide
      simp [dropByteOrderMark, byteSize, hsize]
    · simp [dropByteOrderMark, hmark]

theorem dropByteOrderMark_subset (s : Text) : s.dropByteOrderMark ⊆ s := by
  cases s with
  | nil => exact List.Subset.refl _
  | cons c s =>
    rw [dropByteOrderMark]
    split
    · exact List.subset_cons_self c s
    · exact List.Subset.refl _

end PostMarkup.Text
