import PostMarkup.Proofs.Text.Cutting
import PostMarkup.Typography.RuleSet

namespace PostMarkup.Typography

/-- The names that the dialect writes references by. -/
def dialectNames : List Text := ["plusmn", "nbsp", "mdash", "hellip"].map String.toList

/-- The characters that the signs of the dialect are typed with. -/
def typedSigns : Text := "+-—.".toList

theorem getLast?_flatMap_reference {names : List Text} (hnames : names ≠ []) :
    (names.flatMap reference).getLast? = some ';' := by
  obtain rfl | ⟨names, name, rfl⟩ := List.eq_nil_or_concat names
  · contradiction
  · rw [List.concat_eq_append, List.flatMap_append, List.flatMap_singleton, reference,
      ← List.append_assoc, List.getLast?_concat]

theorem head?_flatMap_reference {names : List Text} (hnames : names ≠ []) :
    (names.flatMap reference).head? = some '&' := by
  obtain ⟨name, names, rfl⟩ := List.exists_cons_of_ne_nil hnames
  rfl

/-- The match covers a typed sign and blanks, and writes references and blanks that it covers. -/
structure Match.IsSign (found : Match) (s : Text) : Prop where
  covers : ∀ c ∈ s.take (found.more + 1), isBlank c ∨ c ∈ typedSigns
  typed : ∃ c ∈ s.take (found.more + 1), c ∈ typedSigns
  writes : ∃ names blanks, names ≠ [] ∧ names ⊆ dialectNames ∧
    blanks ⊆ s.take (found.more + 1) ∧ (∀ c ∈ blanks, isBlank c) ∧
    found.written = names.flatMap reference ++ blanks

/-- A dash is one or two characters as they are typed, and the blank after them. -/
theorem exists_of_dash? {s : Text} {width : Nat} {blank : Char}
    (hdash : dash? s = some (width, blank)) :
    ∃ typed rest, s = typed ++ blank :: rest ∧ typed.length = width ∧ isBlank blank ∧
      typed ≠ [] ∧ ∀ c ∈ typed, c = '-' ∨ c = '—' := by
  unfold dash? at hdash
  split at hdash
  · next c rest =>
    split at hdash
    · next hblank =>
      cases hdash
      exact ⟨['-', '-'], rest, rfl, rfl, hblank, by simp, by simp⟩
    · contradiction
  · next c rest _ =>
    split at hdash
    · next hblank =>
      cases hdash
      exact ⟨['-'], rest, rfl, rfl, hblank, by simp, by simp⟩
    · contradiction
  · next c rest =>
    split at hdash
    · next hblank =>
      cases hdash
      exact ⟨['—'], rest, rfl, rfl, hblank, by simp, by simp⟩
    · contradiction
  · contradiction

/-- The signs of the dialect as they are typed and as they are written. -/
inductive SetSign : Text → Text → Prop
  | plusMinus : SetSign "+-".toList plusMinusSign
  | dash {blanks typed : Text} {blank : Char} {names : List Text}
      (hblanks : ∀ c ∈ blanks, isBlank c) (hnonempty : typed ≠ [])
      (htyped : ∀ c ∈ typed, c = '-' ∨ c = '—') (hblank : isBlank blank) (hwritten : names ≠ [])
      (hnames : names ⊆ dialectNames) :
      SetSign (blanks ++ typed ++ [blank]) (names.flatMap reference ++ [blank])
  | ellipsis (more : Nat) : SetSign (List.replicate (more + 2) '.') horizontalEllipsis

/-- A dash with the blanks before it and the blank after it. -/
theorem setSign_of_dash? {blanks s : Text} {width : Nat} {blank : Char} {names : List Text}
    (hblanks : ∀ c ∈ blanks, isBlank c) (hdash : dash? s = some (width, blank))
    (hwritten : names ≠ []) (hnames : names ⊆ dialectNames) :
    SetSign ((blanks ++ s).take (blanks.length + width + 1))
      (names.flatMap reference ++ [blank]) := by
  obtain ⟨typed, rest, rfl, rfl, hblank, hnonempty, htyped⟩ := exists_of_dash? hdash
  have hsource : blanks ++ (typed ++ blank :: rest) = blanks ++ typed ++ [blank] ++ rest := by simp
  have hlength : blanks.length + typed.length + 1 = (blanks ++ typed ++ [blank]).length := by
    simp only [List.length_append, List.length_singleton]
  rw [hsource, hlength, List.take_left]
  exact .dash hblanks hnonempty htyped hblank hwritten hnames

theorem setSign_of_plusMinus {before : Option Char} {s : Text} {found : Match}
    (hfound : plusMinus before s = some found) :
    SetSign (s.take (found.more + 1)) found.written := by
  unfold plusMinus at hfound
  split at hfound
  · obtain rfl := Option.some.inj hfound
    exact .plusMinus
  · contradiction

theorem setSign_of_spacedDash {before : Option Char} {s : Text} {found : Match}
    (hfound : spacedDash before s = some found) :
    SetSign (s.take (found.more + 1)) found.written := by
  unfold spacedDash at hfound
  split at hfound
  · contradiction
  · obtain ⟨⟨width, blank⟩, hdash, rfl⟩ := Option.map_eq_some_iff.1 hfound
    have hblanks : ∀ c ∈ s.takeWhile isBlank, isBlank c := fun _ => Text.of_mem_takeWhile
    have hset := setSign_of_dash? hblanks hdash
      (by simp : ["nbsp".toList, "mdash".toList] ≠ []) (by decide)
    rwa [List.takeWhile_append_dropWhile] at hset

theorem setSign_of_leadingDash {before : Option Char} {s : Text} {found : Match}
    (hfound : leadingDash before s = some found) :
    SetSign (s.take (found.more + 1)) found.written := by
  cases before with
  | some c => contradiction
  | none =>
    obtain ⟨⟨width, blank⟩, hdash, rfl⟩ := Option.map_eq_some_iff.1 hfound
    have hblanks : ∀ c ∈ ([] : Text), isBlank c := by simp
    have hset := setSign_of_dash? hblanks hdash (by simp : ["mdash".toList] ≠ []) (by decide)
    rwa [List.nil_append, List.length_nil, Nat.zero_add] at hset

/-- An ellipsis is a run of full stops, two at the least. -/
theorem exists_of_ellipsis {before : Option Char} {s : Text} {found : Match}
    (hfound : ellipsis before s = some found) :
    ∃ more, s.take (found.more + 1) = List.replicate (more + 2) '.' ∧
      found.written = horizontalEllipsis := by
  unfold ellipsis at hfound
  split at hfound
  · next rest =>
    obtain rfl := Option.some.inj hfound
    have hrun : rest.takeWhile (· = '.') = List.replicate (rest.takeWhile (· = '.')).length '.' :=
      List.eq_replicate_of_mem fun c hc => by simpa using Text.of_mem_takeWhile hc
    refine ⟨(rest.takeWhile (· = '.')).length, ?_, rfl⟩
    rw [Nat.add_comm 1, List.take_succ_cons, List.take_succ_cons, List.replicate_succ,
      List.replicate_succ, ← hrun, ← List.prefix_iff_eq_take.1 (List.takeWhile_prefix _)]
  · contradiction

theorem setSign_of_ellipsis {before : Option Char} {s : Text} {found : Match}
    (hfound : ellipsis before s = some found) :
    SetSign (s.take (found.more + 1)) found.written := by
  obtain ⟨more, hcovered, hwritten⟩ := exists_of_ellipsis hfound
  rw [hcovered, hwritten]
  exact .ellipsis more

theorem setSign_of_mem_dialect {rule : Rule} (hrule : rule ∈ RuleSet.dialect)
    {before : Option Char} {s : Text} {found : Match} (hfound : rule before s = some found) :
    SetSign (s.take (found.more + 1)) found.written := by
  simp only [RuleSet.dialect, List.mem_cons, List.not_mem_nil, or_false] at hrule
  obtain rfl | rfl | rfl | rfl := hrule
  · exact setSign_of_plusMinus hfound
  · exact setSign_of_spacedDash hfound
  · exact setSign_of_leadingDash hfound
  · exact setSign_of_ellipsis hfound

namespace SetSign

variable {covered written : Text}

theorem covers (h : SetSign covered written) : ∀ c ∈ covered, isBlank c ∨ c ∈ typedSigns := by
  have hmarks : '-' ∈ typedSigns ∧ '—' ∈ typedSigns ∧ '.' ∈ typedSigns := by decide
  cases h with
  | plusMinus => exact fun c hc => .inr ((by decide : "+-".toList ⊆ typedSigns) hc)
  | ellipsis more => exact fun c hc => .inr (List.eq_of_mem_replicate hc ▸ hmarks.2.2)
  | @dash blanks typed blank names hblanks hnonempty htyped hblank hwritten hnames =>
    intro c hc
    simp only [List.mem_append, List.mem_singleton] at hc
    obtain (hc | hc) | rfl := hc
    · exact .inl (hblanks c hc)
    · obtain rfl | rfl := htyped c hc
      · exact .inr hmarks.1
      · exact .inr hmarks.2.1
    · exact .inl hblank

theorem typed (h : SetSign covered written) : ∃ c ∈ covered, c ∈ typedSigns := by
  cases h with
  | plusMinus => exact ⟨'+', by simp, by decide⟩
  | ellipsis more => exact ⟨'.', by simp, by decide⟩
  | @dash blanks typed blank names hblanks hnonempty htyped hblank hwritten hnames =>
    obtain ⟨c, hc⟩ := List.exists_mem_of_ne_nil typed hnonempty
    refine ⟨c, by simp [hc], ?_⟩
    obtain rfl | rfl := htyped c hc <;> decide

theorem writes (h : SetSign covered written) : ∃ names blanks, names ≠ [] ∧ names ⊆ dialectNames ∧
    blanks ⊆ covered ∧ (∀ c ∈ blanks, isBlank c) ∧ written = names.flatMap reference ++ blanks := by
  cases h with
  | plusMinus => exact ⟨["plusmn".toList], [], by simp, by decide, by simp, by simp, rfl⟩
  | ellipsis more => exact ⟨["hellip".toList], [], by simp, by decide, by simp, by simp, rfl⟩
  | @dash blanks typed blank names hblanks hnonempty htyped hblank hwritten hnames =>
    exact ⟨names, [blank], hwritten, hnames, by simp, by simpa using hblank, rfl⟩

end SetSign

theorem isSign_of_mem_dialect {rule : Rule} (hrule : rule ∈ RuleSet.dialect) {before : Option Char}
    {s : Text} {found : Match} (hfound : rule before s = some found) : found.IsSign s :=
  have hset := setSign_of_mem_dialect hrule hfound
  ⟨hset.covers, hset.typed, hset.writes⟩

end PostMarkup.Typography
