import Mathlib.Data.List.DropRight
import Mathlib.Data.List.TakeWhile
import PostMarkup.Text.Basic
import PostMarkup.Text.Escape

namespace PostMarkup

/-- Not all characters are blank. -/
def Text.isVisible (s : Text) : Bool := s.any fun c => !isBlank c

namespace Text

@[simp]
theorem isVisible_append (s t : Text) : isVisible (s ++ t) = (isVisible s || isVisible t) :=
  List.any_append

theorem isVisible_of_mem {s : Text} {c : Char} (hc : isBlank c = false) (hmem : c ∈ s) :
    isVisible s = true :=
  List.any_eq_true.2 ⟨c, hmem, by simp [hc]⟩

theorem isBlank_of_isVisible {s : Text} (hs : isVisible s = false) : ∀ c ∈ s, isBlank c = true := by
  simpa [isVisible] using hs

/-- Trimming leaves nothing of blank text only. -/
theorem trim_eq_nil_iff {s : Text} : s.trim = [] ↔ isVisible s = false := by
  have htrimEnd (t : Text) : t.trimEnd = [] ↔ ∀ c ∈ t, isBlank c := by
    simp [trimEnd, List.dropWhile_eq_nil_iff]
  rw [trim, htrimEnd, trimStart]
  constructor
  · intro hrest
    have hall : ∀ c ∈ s, isBlank c := by
      intro c hc
      rw [← List.takeWhile_append_dropWhile (p := isBlank) (l := s)] at hc
      obtain hc | hc := List.mem_append.1 hc
      · exact List.all_eq_true.1 List.all_takeWhile c hc
      · exact hrest c hc
    simpa [isVisible] using hall
  · intro hs c hc
    exact isBlank_of_isVisible hs c ((List.dropWhile_suffix isBlank).subset hc)

theorem isVisible_escapeText (s : Text) : isVisible (escapeText s) = isVisible s := by
  induction s with
  | nil => rfl
  | cons c s ih =>
    have hescaped : isVisible (escapeText [c]) = isVisible [c] := by
      simp only [escapeText, List.flatMap_cons, List.flatMap_nil, List.append_nil]
      split <;> rfl
    rw [← List.singleton_append, escapeText_append, isVisible_append, hescaped, ih,
      isVisible_append]

theorem trim_append_of_blank {lead : Text} (hlead : ∀ c ∈ lead, isBlank c = true) (s : Text) :
    (lead ++ s).trim = s.trim := by
  rw [trim, trimStart, List.dropWhile_append_of_pos hlead, ← trimStart, ← trim]

/-- A text that begins and ends with a visible character. -/
structure IsTrimmed (s : Text) : Prop where
  head : s.head?.any (fun c => !isBlank c) = true
  last : s.getLast?.any (fun c => !isBlank c) = true

namespace IsTrimmed

variable {core : Text} (h : IsTrimmed core)

include h

theorem exists_cons : ∃ c s, core = c :: s ∧ isBlank c = false := by
  cases core with
  | nil => simpa using h.head
  | cons c s => exact ⟨c, s, rfl, by simpa using h.head⟩

theorem exists_concat : ∃ s c, core = s ++ [c] ∧ isBlank c = false := by
  obtain rfl | ⟨s, c, rfl⟩ := List.eq_nil_or_concat' core
  · simpa using h.last
  · exact ⟨s, c, rfl, by simpa using h.last⟩

theorem append_between (between : Text) {other : Text} (hother : IsTrimmed other) :
    IsTrimmed (core ++ between ++ other) := by
  obtain ⟨c, s, rfl, hc⟩ := h.exists_cons
  obtain ⟨t, d, rfl, hd⟩ := hother.exists_concat
  refine ⟨by simp [hc], ?_⟩
  rw [← List.append_assoc, List.getLast?_concat]
  simp [hd]

variable {lead tail : Text} (hlead : ∀ c ∈ lead, isBlank c = true)

include hlead

theorem takeWhile_append (t : Text) : (lead ++ (core ++ t)).takeWhile isBlank = lead := by
  obtain ⟨c, s, rfl, hc⟩ := h.exists_cons
  rw [List.takeWhile_append_of_pos hlead, List.cons_append, List.takeWhile_cons_of_neg (by simp [hc]),
    List.append_nil]

theorem trimStart_append (t : Text) : (lead ++ (core ++ t)).trimStart = core ++ t := by
  obtain ⟨c, s, rfl, hc⟩ := h.exists_cons
  rw [trimStart, List.dropWhile_append_of_pos hlead, List.cons_append,
    List.dropWhile_cons_of_neg (by simp [hc])]

omit hlead

variable (htail : ∀ c ∈ tail, isBlank c = true)

include htail

theorem rtakeWhile_append (s : Text) : (s ++ core ++ tail).rtakeWhile isBlank = tail := by
  obtain ⟨t, d, rfl, hd⟩ := h.exists_concat
  have hreverse : ∀ c ∈ tail.reverse, isBlank c = true := by simpa using htail
  have hwhole : (s ++ (t ++ [d]) ++ tail).reverse = tail.reverse ++ d :: (s ++ t).reverse := by simp
  rw [List.rtakeWhile, hwhole, List.takeWhile_append_of_pos hreverse,
    List.takeWhile_cons_of_neg (by simp [hd]), List.append_nil, List.reverse_reverse]

theorem trimEnd_append (s : Text) : (s ++ core ++ tail).trimEnd = s ++ core := by
  obtain ⟨t, d, rfl, hd⟩ := h.exists_concat
  have hreverse : ∀ c ∈ tail.reverse, isBlank c = true := by simpa using htail
  have hwhole : (s ++ (t ++ [d]) ++ tail).reverse = tail.reverse ++ d :: (s ++ t).reverse := by simp
  rw [trimEnd, hwhole, List.dropWhile_append_of_pos hreverse,
    List.dropWhile_cons_of_neg (by simp [hd])]
  simp

include hlead

theorem trim_eq : (lead ++ core ++ tail).trim = core := by
  have hstart := h.trimStart_append hlead tail
  have hend := h.trimEnd_append htail []
  rw [List.nil_append] at hend
  rw [trim, List.append_assoc, hstart, hend]

end IsTrimmed

/-- Visible text is a trimmed part between blanks. -/
theorem exists_isTrimmed {s : Text} (hs : isVisible s = true) :
    ∃ lead core tail, s = lead ++ core ++ tail ∧ (∀ c ∈ lead, isBlank c = true) ∧
      (∀ c ∈ tail, isBlank c = true) ∧ IsTrimmed core := by
  induction s with
  | nil => contradiction
  | cons c s ih =>
    cases hc : isBlank c with
    | true =>
      have hs : isVisible s = true := by simpa [isVisible, hc] using hs
      obtain ⟨lead, core, tail, rfl, hlead, htail, hcore⟩ := ih hs
      exact ⟨c :: lead, core, tail, rfl, List.forall_mem_cons.2 ⟨hc, hlead⟩, htail, hcore⟩
    | false =>
      have hfirst : IsTrimmed [c] := ⟨by simp [hc], by simp [hc]⟩
      cases hs : isVisible s with
      | true =>
        obtain ⟨lead, core, tail, rfl, -, htail, hcore⟩ := ih hs
        exact ⟨[], [c] ++ lead ++ core, tail, by simp, by simp, htail,
          hfirst.append_between lead hcore⟩
      | false => exact ⟨[], [c], s, rfl, by simp, isBlank_of_isVisible hs, hfirst⟩

theorem isTrimmed_trim {s : Text} (hs : isVisible s = true) : IsTrimmed s.trim := by
  obtain ⟨lead, core, tail, rfl, hlead, htail, hcore⟩ := exists_isTrimmed hs
  rwa [hcore.trim_eq hlead htail]

theorem trim_append_blank (s : Text) {tail : Text} (htail : ∀ c ∈ tail, isBlank c = true) :
    (s ++ tail).trim = s.trim := by
  cases hs : isVisible s with
  | false =>
    have hnone : isVisible (s ++ tail) = false := by
      rw [isVisible_append, hs, Bool.false_or]
      simpa [isVisible] using htail
    rw [trim_eq_nil_iff.2 hs, trim_eq_nil_iff.2 hnone]
  | true =>
    obtain ⟨lead, core, blanks, rfl, hlead, hblanks, hcore⟩ := exists_isTrimmed hs
    have hboth : ∀ c ∈ blanks ++ tail, isBlank c = true := List.forall_mem_append.2 ⟨hblanks, htail⟩
    rw [List.append_assoc, hcore.trim_eq hlead hboth, hcore.trim_eq hlead hblanks]

/-- Between the visible parts of two texts stand the blanks after the one and before the other. -/
theorem trim_append {s t : Text} (hs : isVisible s = true) (ht : isVisible t = true) :
    (s ++ t).trim = s.trim ++ (s.rtakeWhile isBlank ++ t.takeWhile isBlank ++ t.trim) := by
  obtain ⟨lead, core, tail, rfl, hlead, htail, hcore⟩ := exists_isTrimmed hs
  obtain ⟨before, other, after, rfl, hbefore, hafter, hother⟩ := exists_isTrimmed ht
  have hwhole : lead ++ core ++ tail ++ (before ++ other ++ after) =
      lead ++ (core ++ (tail ++ before) ++ other) ++ after := by simp
  rw [hwhole, (hcore.append_between (tail ++ before) hother).trim_eq hlead hafter,
    hcore.trim_eq hlead htail, hother.trim_eq hbefore hafter, hcore.rtakeWhile_append htail,
    List.append_assoc before, hother.takeWhile_append hbefore]
  simp

/-- Blanks before trimmed text are told apart from it. -/
theorem blank_append_inj {lead more core other : Text} (hlead : ∀ c ∈ lead, isBlank c = true)
    (hmore : ∀ c ∈ more, isBlank c = true) (hcore : IsTrimmed core) (hother : IsTrimmed other) :
    lead ++ core = more ++ other ↔ lead = more ∧ core = other := by
  constructor
  · intro heq
    have hfirst := hcore.takeWhile_append hlead []
    have hsecond := hother.takeWhile_append hmore []
    rw [List.append_nil] at hfirst hsecond
    rw [heq, hsecond] at hfirst
    subst hfirst
    exact ⟨rfl, List.append_cancel_left heq⟩
  · rintro ⟨rfl, rfl⟩
    rfl

/-- The visible characters of a text. -/
def visibles (s : Text) : Text := s.filter fun c => !isBlank c

@[simp]
theorem visibles_append (s t : Text) : visibles (s ++ t) = visibles s ++ visibles t :=
  List.filter_append ..

theorem visibles_eq_nil_iff {s : Text} : visibles s = [] ↔ isVisible s = false := by
  simp [visibles, isVisible]

theorem visibles_trim (s : Text) : visibles s.trim = visibles s := by
  cases hs : isVisible s with
  | false => rw [trim_eq_nil_iff.2 hs, visibles_eq_nil_iff.2 hs, visibles, List.filter_nil]
  | true =>
    obtain ⟨lead, core, tail, rfl, hlead, htail, hcore⟩ := exists_isTrimmed hs
    have hblank {blanks : Text} (h : ∀ c ∈ blanks, isBlank c = true) : visibles blanks = [] := by
      simpa [visibles] using h
    rw [hcore.trim_eq hlead htail, visibles_append, visibles_append, hblank hlead, hblank htail]
    simp

theorem IsTrimmed.eq_nil_of_append {core more : Text} (h : IsTrimmed (core ++ more))
    (hmore : isVisible more = false) : more = [] := by
  obtain rfl | ⟨s, c, rfl⟩ := List.eq_nil_or_concat' more
  · rfl
  · have hblank := isBlank_of_isVisible hmore c (by simp)
    have hlast := h.last
    rw [← List.append_assoc, List.getLast?_concat] at hlast
    simp [hblank] at hlast

/-- Trimmed texts with the same visible characters are told apart from what follows them. -/
theorem IsTrimmed.append_inj {core other s t : Text} (hcore : IsTrimmed core)
    (hother : IsTrimmed other) (hsame : visibles core = visibles other) :
    core ++ s = other ++ t ↔ core = other ∧ s = t := by
  constructor
  · intro heq
    have hrest {more : Text} (hmore : visibles more = []) {lead : Text}
        (hwhole : IsTrimmed (lead ++ more)) : more = [] :=
      hwhole.eq_nil_of_append (visibles_eq_nil_iff.1 hmore)
    obtain ⟨more, rfl, rfl⟩ | ⟨more, rfl, rfl⟩ := List.append_eq_append_iff.1 heq
    · obtain rfl := hrest (by simpa using hsame) hother
      simp
    · obtain rfl := hrest (by simpa using hsame) hcore
      simp
  · rintro ⟨rfl, rfl⟩
    rfl

end Text

end PostMarkup
