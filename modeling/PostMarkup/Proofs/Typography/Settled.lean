import PostMarkup.Proofs.Typography.Fractions
import PostMarkup.Proofs.Typography.KeptReferences
import PostMarkup.Proofs.Typography.Silence

namespace PostMarkup.Typography

/-- A dash as it is typed. -/
def typedDashes : List Text := ["-".toList, "--".toList, "—".toList]

/-- A dash with a blank on both sides has a dash that is already set right before it. -/
def SetDashes (t : Text) : Prop :=
  ∀ front first dash second rest, t = front ++ first :: (dash ++ second :: rest) →
    isBlank first → dash ∈ typedDashes → isBlank second → emDash <:+ front

/-- The rules for signs are done with a text. -/
structure Settled (t : Text) : Prop where
  stops : ¬ "..".toList <:+: t
  plusMinus : ¬ "+-".toList <:+: t
  dashes : SetDashes t

/-- A rule that takes two characters wherever they follow on each other, and writes neither, leaves no
    such pair. -/
theorem not_infix_scan {rule : Rule} {a b : Char} (hrule : rule.WritesReferences) (hb : b ≠ '&')
    (hwritten : ∀ before s found, rule before s = some found → a ∉ found.written)
    (hfires : ∀ before s, (rule before (a :: b :: s)).isSome) (before : Option Char) (covered : Nat)
    (s : Text) : ¬ [a, b] <:+: rule.scan before covered s := by
  induction s generalizing before covered with
  | nil => simp [Rule.scan]
  | cons c s ih =>
    cases covered with
    | succ covered => exact ih (some c) covered
    | zero =>
      rw [Rule.scan]
      split
      · next found hfound =>
        rintro ⟨front, rest, heq⟩
        have hsplit : found.written ++ rule.scan (some c) found.more s = front ++ a :: (b :: rest) := by
          simpa using heq.symm
        obtain ⟨middle, rfl, hmiddle⟩ | ⟨middle, hmiddle, hscan⟩ :=
          List.append_eq_append_iff.1 hsplit
        · exact ih (some c) found.more ⟨middle, rest, by simp [hmiddle]⟩
        · obtain _ | ⟨d, middle⟩ := middle
          · exact ih (some c) found.more ⟨[], rest, by simpa using hscan⟩
          · obtain ⟨rfl, -⟩ := List.cons.inj hscan
            exact hwritten before (c :: s) found hfound (by simp [hmiddle])
      · next hnone =>
        rintro ⟨_ | ⟨d, front⟩, rest, heq⟩
        · obtain ⟨rfl, htail⟩ := List.cons.inj heq
          obtain ⟨s, rfl, -⟩ := hrule.exists_of_scan_eq_cons hb htail.symm
          simpa [hnone] using hfires before s
        · exact ih (some c) 0 ⟨front, rest, (List.cons.inj heq).2⟩

theorem not_mem_of_setSign {covered written : Text} (h : SetSign covered written) {c : Char}
    (hc : c ∈ typedSigns) : c ∉ written := by
  have hnames : ∀ name ∈ dialectNames, ∀ c ∈ reference name, c ∉ typedSigns := by
    have hall : ∀ name ∈ dialectNames, (reference name).all fun c => decide (c ∉ typedSigns) := by
      decide
    exact fun name hname => Text.forall_of_all (hall name hname)
  have hvisible : ∀ c ∈ typedSigns, isBlank c = false := Text.forall_of_all (by decide)
  obtain ⟨names, blanks, -, hsub, -, hblanks, rfl⟩ := h.writes
  rw [List.mem_append, List.mem_flatMap]
  rintro (⟨name, hname, hmem⟩ | hmem)
  · exact hnames name (hsub hname) c hmem hc
  · simpa [hvisible c hc] using hblanks c hmem

theorem written_ne_nil_of_setSign {covered written : Text} (h : SetSign covered written) :
    written ≠ [] := by
  obtain ⟨names, blanks, hnonempty, -, -, -, rfl⟩ := h.writes
  obtain ⟨s, hs⟩ := List.head?_eq_some_iff.1 (head?_flatMap_reference hnonempty)
  simp [hs]

theorem isSome_dash? {dash : Text} {blank : Char} (hdash : dash ∈ typedDashes)
    (hblank : isBlank blank) (rest : Text) : (dash? (dash ++ blank :: rest)).isSome := by
  have hhyphen : blank ≠ '-' := by
    rintro rfl
    exact absurd hblank (by decide)
  simp only [typedDashes, List.mem_cons, List.not_mem_nil, or_false] at hdash
  obtain rfl | rfl | rfl := hdash <;> simp [dash?, hblank, hhyphen]

theorem ampersand_not_mem_of_typedDash {dash : Text} (hdash : dash ∈ typedDashes) : '&' ∉ dash := by
  have hall : ∀ dash ∈ typedDashes, '&' ∉ dash := by decide
  exact hall dash hdash

theorem isSome_spacedDash {first second : Char} {dash : Text} (hfirst : isBlank first)
    (hdash : dash ∈ typedDashes) (hsecond : isBlank second) (before : Option Char) (rest : Text) :
    (spacedDash before (first :: (dash ++ second :: rest))).isSome := by
  have hvisible : ∀ dash ∈ typedDashes, dash.head?.any isBlank = false ∧ dash ≠ [] := by decide
  obtain ⟨hhead, hnonempty⟩ := hvisible dash hdash
  have hdashed := isSome_dash? hdash hsecond rest
  obtain ⟨c, dash, rfl⟩ := List.exists_cons_of_ne_nil hnonempty
  have hc : isBlank c = false := by simpa using hhead
  rw [List.cons_append] at hdashed
  simp [spacedDash, hfirst, hc, hdashed]

/-- A set dash brings no other dash, and the blank after it may be the blank before the next. -/
theorem SetDashes.append {lead s : Text} (hs : SetDashes s)
    (hlead : ∀ c ∈ lead ++ emDash, isBlank c = false) (blank : Char) :
    SetDashes (lead ++ emDash ++ blank :: s) := by
  intro front first dash second rest heq hfirst hdash hsecond
  obtain ⟨middle, rfl, hmiddle⟩ | ⟨middle, hmiddle, hrest⟩ := List.append_eq_append_iff.1 heq
  · obtain _ | ⟨c, middle⟩ := middle
    · simp
    · obtain ⟨rfl, rfl⟩ := List.cons.inj hmiddle
      have hsuffix := hs middle first dash second rest rfl hfirst hdash hsecond
      exact hsuffix.trans ((List.suffix_cons blank middle).trans (List.suffix_append _ _))
  · obtain _ | ⟨c, middle⟩ := middle
    · rw [List.append_nil] at hmiddle
      exact ⟨lead, hmiddle⟩
    · obtain ⟨rfl, -⟩ := List.cons.inj hrest
      simp [hlead first (by simp [hmiddle])] at hfirst

theorem setDashes_scan_spacedDash (before : Option Char) (covered : Nat) (s : Text) :
    SetDashes (Rule.scan spacedDash before covered s) := by
  have hwrites : Rule.WritesReferences spacedDash :=
    writesReferences_of_mem_dialect (by simp [RuleSet.dialect])
  induction s generalizing before covered with
  | nil => simp [Rule.scan, SetDashes]
  | cons c s ih =>
    cases covered with
    | succ covered => exact ih (some c) covered
    | zero =>
      rw [Rule.scan]
      split
      · next found hfound =>
        have hwritten : ∃ blank, found.written = noBreakSpace ++ emDash ++ [blank] := by
          unfold spacedDash at hfound
          split at hfound
          · contradiction
          · obtain ⟨⟨width, blank⟩, -, rfl⟩ := Option.map_eq_some_iff.1 hfound
            exact ⟨blank, rfl⟩
        obtain ⟨blank, hblank⟩ := hwritten
        rw [hblank, List.append_assoc _ [blank], List.singleton_append]
        exact (ih (some c) found.more).append (Text.forall_of_all (by decide)) blank
      · next hnone =>
        rintro (_ | ⟨d, front⟩) first dash second rest heq hfirst hdash hsecond
        · obtain ⟨rfl, hscan⟩ := List.cons.inj heq
          -- The dash was there before the scan, and the rule would have taken it.
          have hplain : '&' ∉ dash ++ [second] := by
            simp [ampersand_not_mem_of_typedDash hdash, Ne.symm (isBreak_of_isBlank hsecond).2]
          rw [List.append_cons] at hscan
          obtain ⟨tail, rfl⟩ := hwrites.exists_of_scan_eq_append hplain hscan
          have hfires := isSome_spacedDash hfirst hdash hsecond before tail
          rw [List.append_cons, hnone] at hfires
          contradiction
        · have hsuffix := ih (some c) 0 front first dash second rest (List.cons.inj heq).2 hfirst hdash
            hsecond
          exact hsuffix.trans (List.suffix_cons d front)

/-- Past the head of a text the rule for a leading dash finds nothing. -/
theorem scan_leadingDash_some (c : Char) (covered : Nat) (s : Text) :
    Rule.scan leadingDash (some c) covered s = s.drop covered := by
  induction s generalizing c covered with
  | nil => simp [Rule.scan]
  | cons d s ih =>
    cases covered with
    | succ covered => exact ih d covered
    | zero =>
      rw [Rule.scan]
      exact congrArg (d :: ·) (ih d 0)

/-- A leading dash is set with the blank after it, and the rest is kept. -/
theorem apply_leadingDash (s : Text) : Rule.apply leadingDash s = s ∨
    ∃ typed blank rest, s = typed ++ blank :: rest ∧ isBlank blank ∧
      Rule.apply leadingDash s = emDash ++ blank :: rest := by
  cases s with
  | nil => exact .inl rfl
  | cons c s =>
    rw [Rule.apply, Rule.scan]
    split
    · next found hfound =>
      obtain ⟨⟨width, blank⟩, hdash, rfl⟩ := Option.map_eq_some_iff.1 hfound
      obtain ⟨typed, rest, hs, rfl, hblank, -⟩ := exists_of_dash? hdash
      refine .inr ⟨typed, blank, rest, hs, hblank, ?_⟩
      have hlater : s.drop typed.length = rest := by
        rw [← List.drop_succ_cons, hs, ← List.drop_drop, List.drop_left]
        rfl
      rw [scan_leadingDash_some, hlater, List.append_assoc, List.singleton_append]
    · rw [scan_leadingDash_some, List.drop_zero]
      exact .inl rfl

theorem SetDashes.apply_leadingDash {s : Text} (hs : SetDashes s) :
    SetDashes (Rule.apply leadingDash s) := by
  obtain hkept | ⟨typed, blank, rest, rfl, hblank, hset⟩ := Typography.apply_leadingDash s
  · rwa [hkept]
  · have hvisible : ∀ c ∈ emDash, isBlank c = false := Text.forall_of_all (by decide)
    have hnone : blank ∉ emDash := fun hmem => by simp [hvisible blank hmem] at hblank
    have hlater : SetDashes rest := by
      intro front first dash second tail heq hfirst hdash hsecond
      have hwhole : typed ++ blank :: rest =
          typed ++ blank :: front ++ first :: (dash ++ second :: tail) := by
        simp [heq]
      exact suffix_of_not_mem hnone (hs _ first dash second tail hwhole hfirst hdash hsecond)
    have happend : SetDashes ([] ++ emDash ++ blank :: rest) :=
      hlater.append (Text.forall_of_all (by decide)) blank
    rwa [List.nil_append, ← hset] at happend

/-- A stretch that gives way to something without blanks and marks of signs, and that holds nothing of
    the reference for a dash. -/
structure KeepsSettled (covered written : Text) : Prop where
  covers : covered ≠ []
  writes : written ≠ []
  marks : ∀ c ∈ written, isBlank c = false ∧ c ∉ typedSigns
  dash : ∀ c ∈ emDash, c ∉ covered

section

variable {s t : Text} (h : Replaced KeepsSettled s t)

include h

theorem Replaced.infix_of_marks {kept : Text} (hnonempty : kept ≠ [])
    (hkept : ∀ c ∈ kept, c ∈ typedSigns) (hwithin : kept <:+: t) : kept <:+: s :=
  h.infix_of_not_mem hnonempty
    (fun _ _ huv => ⟨huv.writes, fun c hc hmem => (huv.marks c hmem).2 (hkept c hc)⟩) hwithin

theorem SetDashes.replaced (hs : SetDashes s) : SetDashes t := by
  rintro front first dash second rest rfl hfirst hdash hsecond
  have htyped : ∀ dash ∈ typedDashes, dash.all fun c => decide (c ∈ typedSigns) := by decide
  have hkept : ∀ c ∈ first :: (dash ++ [second]), isBlank c ∨ c ∈ typedSigns := by
    simp only [List.mem_cons, List.mem_append, List.not_mem_nil, or_false]
    rintro c (rfl | hc | rfl)
    · exact .inl hfirst
    · exact .inr (Text.forall_of_all (htyped dash hdash) c hc)
    · exact .inl hsecond
  have hsplit : front ++ first :: (dash ++ second :: rest) =
      front ++ (first :: (dash ++ [second]) ++ rest) := by simp
  have hsymm := h.symm
  rw [hsplit] at hsymm
  obtain ⟨source, sourceRest, rfl, hfront, -⟩ :=
    hsymm.exists_of_append_append (fun u v huv => huv.writes) (List.cons_ne_nil _ _) <| by
      intro u v huv c hc hmem
      obtain ⟨hblank, hmark⟩ := huv.marks c hmem
      exact (hkept c hc).elim (by simp [hblank]) hmark
  exact hfront.symm.suffix (fun u v huv => huv.covers) (fun u v huv => huv.dash)
    (hs source first dash second sourceRest (by simp) hfirst hdash hsecond)

theorem Settled.replaced (hs : Settled s) : Settled t where
  stops hstops := hs.stops (h.infix_of_marks (by simp) (Text.forall_of_all (by decide)) hstops)
  plusMinus hsign :=
    hs.plusMinus (h.infix_of_marks (by simp) (Text.forall_of_all (by decide)) hsign)
  dashes := hs.dashes.replaced h

end

theorem RuleSet.settled_apply {rules : RuleSet} (hrules : ∀ rule ∈ rules, rule.Replaces KeepsSettled)
    {s : Text} (hs : Settled s) : Settled (rules.apply s) :=
  RuleSet.applyAfter_induction (fun s t => Settled s → Settled t) (fun _ => id)
    (fun _ _ _ h hnext hs => hnext (h hs))
    (fun rule hrule s hs => hs.replaced ((hrules rule hrule).apply s)) s hs

theorem keepsSettled_ellipsis : Rule.Replaces ellipsis KeepsSettled := by
  intro before s found hfound
  obtain ⟨more, hcovered, hwritten⟩ := exists_of_ellipsis hfound
  rw [hcovered, hwritten]
  refine .single ⟨by simp, by decide, Text.forall_of_all (by decide), fun c hc hmem => ?_⟩
  exact absurd (List.eq_of_mem_replicate hmem ▸ hc) (by decide)

/-- So do the rules that only stored HTML and inline fragments have. -/
theorem keepsSettled_of_mem {rule : Rule}
    (hrule : rule ∈ [digitMinus] ++ RuleSet.fractions ++ [openingQuote, closingQuote]) :
    rule.Replaces KeepsSettled := by
  have hquote {c d : Char} (hc : c ∈ "\"«»".toList) (hd : d ∈ "\"«»".toList) :
      KeepsSettled [c] [d] := by
    have hwritten : ∀ c ∈ "\"«»".toList, isBlank c = false ∧ c ∉ typedSigns :=
      Text.forall_of_all (by decide)
    have hcovered : ∀ c ∈ "\"«»".toList, c ∉ emDash := Text.forall_of_all (by decide)
    refine ⟨by simp, by simp, by simpa using hwritten d hd, fun e he hmem => hcovered c hc ?_⟩
    exact List.mem_singleton.1 hmem ▸ he
  obtain hrule | hquotes := List.mem_append.1 hrule
  · obtain hminus | hsymbol := List.mem_append.1 hrule
    · obtain rfl := List.mem_singleton.1 hminus
      exact replaces_digitMinus ⟨by simp, by decide, Text.forall_of_all (by decide),
        Text.forall_of_all (by decide)⟩
    · obtain ⟨entry, hentry, rfl⟩ := List.mem_map.1 hsymbol
      have hentries : ∀ entry ∈ symbols, entry.1 ≠ [] ∧ reference entry.1 ≠ [] ∧
          ((reference entry.1).all fun c => decide (isBlank c = false ∧ c ∉ typedSigns)) ∧
          emDash.all fun c => decide (c ∉ entry.1) := by decide
      obtain ⟨hcovered, hwritten, hmarks, hdash⟩ := hentries entry hentry
      exact replaces_symbol hcovered
        ⟨hcovered, hwritten, Text.forall_of_all hmarks, Text.forall_of_all hdash⟩
  · have hopening : "\"»".toList ⊆ "\"«»".toList := by decide
    have hclosing : "\"«".toList ⊆ "\"«»".toList := by decide
    obtain rfl | rfl : rule = openingQuote ∨ rule = closingQuote := by simpa using hquotes
    · exact replaces_openingQuote fun c hc => hquote (hopening hc) (by simp)
    · exact replaces_closingQuote fun c hc => hquote (hclosing hc) (by simp)

/-- The rules after the one for plus-minus signs write no part of one. -/
theorem not_infix_plusMinus (s : Text) : ¬ "+-".toList <:+: RuleSet.dialect.apply s := by
  have hfirst : ¬ "+-".toList <:+: Rule.apply plusMinus s := by
    refine not_infix_scan (writesReferences_of_mem_dialect (by simp [RuleSet.dialect])) (by decide)
      (fun before s found hfound => ?_) (fun _ _ => rfl) none 0 s
    exact not_mem_of_setSign (setSign_of_plusMinus hfound) (by decide)
  refine RuleSet.applyAfter_induction (fun s t => ¬ "+-".toList <:+: s → ¬ "+-".toList <:+: t)
    (fun _ => id) (fun _ _ _ h hnext hs => hnext (h hs)) (fun rule hrule s hs hwithin => hs ?_)
    (Rule.apply plusMinus s) hfirst
  have hreplaces : rule.Replaces SetSign :=
    replaces_of_mem_dialect (fun _ _ => id) (List.mem_cons_of_mem plusMinus hrule)
  have hmarks : "+-".toList ⊆ typedSigns := by decide
  exact (hreplaces.apply s).infix_of_not_mem (by simp)
    (fun u v huv => ⟨written_ne_nil_of_setSign huv, fun c hc => not_mem_of_setSign huv (hmarks hc)⟩)
    hwithin

theorem settled_dialect (s : Text) : Settled (RuleSet.dialect.apply s) where
  stops := by
    refine not_infix_scan (writesReferences_of_mem_dialect (by simp [RuleSet.dialect])) (by decide)
      (fun before s found hfound => ?_) (fun _ _ => rfl) none 0 _
    exact not_mem_of_setSign (setSign_of_ellipsis hfound) (by decide)
  plusMinus := not_infix_plusMinus s
  dashes :=
    (setDashes_scan_spacedDash none 0 _).apply_leadingDash.replaced (keepsSettled_ellipsis.apply _)

theorem settled_html (s : Text) : Settled (RuleSet.html.apply s) := by
  have hrules : ∀ rule ∈ digitMinus :: RuleSet.fractions, rule.Replaces KeepsSettled := fun rule hrule =>
    keepsSettled_of_mem (List.mem_append_left [openingQuote, closingQuote] hrule)
  exact RuleSet.settled_apply hrules (settled_dialect (Rule.apply hyphenSpacing s))

theorem settled_inline (s : Text) : Settled (RuleSet.inline.apply s) := by
  have hrules : ∀ rule ∈ [digitMinus, openingQuote, closingQuote], rule.Replaces KeepsSettled := by
    intro rule hrule
    refine keepsSettled_of_mem ?_
    obtain rfl | hquote := List.mem_cons.1 hrule
    · simp
    · exact List.mem_append_right _ hquote
  exact RuleSet.settled_apply hrules (settled_dialect (Rule.apply hyphenSpacing s))

/-- A fraction that is left in stored HTML has a word at one of its ends. -/
theorem any_isWord_of_fraction_html {s front rest : Text} {entry : Text × Text}
    (hentry : entry ∈ symbols) (hsplit : RuleSet.html.apply s = front ++ (entry.1 ++ rest)) :
    front.getLast?.any isWord ∨ rest.head?.any isWord := by
  have hsilent : (symbol entry.1).IsSilent none (RuleSet.html.apply s) :=
    isSilent_apply_symbols (List.Subset.refl symbols) hentry (.inl hentry)
  have hnonempty : ∀ entry ∈ symbols, entry.1 ≠ [] := by decide
  obtain ⟨c, spelled, hspelled⟩ := List.exists_cons_of_ne_nil (hnonempty entry hentry)
  rw [hsplit, hspelled, List.cons_append] at hsilent
  have hnone := hsilent.of_append
  rw [← List.cons_append, ← hspelled, Option.or_none] at hnone
  by_contra hword
  rw [not_or, Bool.not_eq_true, Bool.not_eq_true] at hword
  have hstands : StandsAt entry.1 (entry.1 ++ rest) := ⟨rest, rfl, hword.2⟩
  have hsome := (isSome_symbol_iff hword.1).2 hstands
  simp [hnone] at hsome

/-- One run of a rule set leaves no full stops in a row, no plus before a hyphen, no fraction in
    stored HTML with no word at either end, and no dash with blanks on both sides but one whose first
    blank is the last of a dash before it. -/
theorem apply_settled (s : Text) :
    Settled (RuleSet.dialect.apply s) ∧ Settled (RuleSet.html.apply s) ∧
      Settled (RuleSet.inline.apply s) ∧
      ∀ entry ∈ symbols, ∀ front rest, RuleSet.html.apply s = front ++ (entry.1 ++ rest) →
        front.getLast?.any isWord ∨ rest.head?.any isWord :=
  ⟨settled_dialect s, settled_html s, settled_inline s, fun _ hentry _ _ =>
    any_isWord_of_fraction_html hentry⟩

/-- Of two dashes that share a blank the second is left, and so is a fraction that ends a number. -/
theorem apply_settled_of_shared_blank :
    RuleSet.html.apply "a - - b 11/2".toList =
      "a&nbsp;&mdash;".toList ++ ' ' :: ("-".toList ++ ' ' :: "b 11/2".toList) ∧
    emDash <:+ "a&nbsp;&mdash;".toList ∧
    ("a&nbsp;&mdash; - b 1".toList.getLast?.any isWord ∨ ([] : Text).head?.any isWord) := by
  have hsplit : RuleSet.html.apply "a - - b 11/2".toList =
      "a&nbsp;&mdash;".toList ++ ' ' :: ("-".toList ++ ' ' :: "b 11/2".toList) := by decide +kernel
  obtain ⟨-, hsettled, -, hfraction⟩ := apply_settled "a - - b 11/2".toList
  exact ⟨hsplit,
    hsettled.dashes _ ' ' _ ' ' _ hsplit (by decide) (by decide) (by decide),
    hfraction ("1/2".toList, "frac12".toList) (by decide) _ [] (hsplit.trans (by decide))⟩

end PostMarkup.Typography
