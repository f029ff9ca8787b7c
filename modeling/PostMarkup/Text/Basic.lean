import PostMarkup.Text.CharacterClass

namespace PostMarkup

/-- A text, one element per Unicode scalar value. -/
abbrev Text := List Char

/-- Shortcut for tests of membership among texts: with this constant in it a test is the same term in
    every module, and no module abstracts a proof of its own for it. -/
instance : LawfulBEq Text := inferInstance

namespace Text

/-- What follows `lead` at the head of a text. -/
def after? : Text → Text → Option Text
  | [], s => some s
  | _ :: _, [] => none
  | l :: lead, c :: s => if l = c then after? lead s else none

theorem after?_eq_some_iff {lead s rest : Text} : after? lead s = some rest ↔ s = lead ++ rest := by
  induction lead generalizing s with
  | nil => simp [after?, eq_comm]
  | cons l lead ih =>
    cases s with
    | nil => simp [after?]
    | cons c s =>
      by_cases hhead : l = c
      · subst hhead
        simp [after?, ih]
      · simp [after?, hhead, Ne.symm hhead]

/-- ASCII letters in lower case; every other character stays. -/
def lower (s : Text) : Text := s.map Char.toLower

/-- What follows `lead` at the head of a text, where ASCII letters agree in either case. The lead is
    given in lower case. -/
def afterAnyCase? : Text → Text → Option Text
  | [], s => some s
  | _ :: _, [] => none
  | l :: lead, c :: s => if l = c.toLower then afterAnyCase? lead s else none

theorem length_le_of_afterAnyCase? {lead s rest : Text}
    (hafter : afterAnyCase? lead s = some rest) : rest.length ≤ s.length := by
  fun_induction afterAnyCase? lead s <;> grind

/-- The text before the first occurrence of `mark` and the text after it. -/
def upTo? (mark : Text) : Text → Option (Text × Text)
  | [] => (after? mark []).map ([], ·)
  | c :: s =>
    match after? mark (c :: s) with
    | some rest => some ([], rest)
    | none => (upTo? mark s).map fun cut => (c :: cut.1, cut.2)

theorem append_of_upTo? {mark s before rest : Text} (hcut : upTo? mark s = some (before, rest)) :
    s = before ++ mark ++ rest := by
  induction s generalizing before with
  | nil =>
    simp only [upTo?, Option.map_eq_some_iff, Prod.mk.injEq] at hcut
    obtain ⟨tail, hafter, rfl, rfl⟩ := hcut
    simpa using after?_eq_some_iff.1 hafter
  | cons c s ih =>
    simp only [upTo?] at hcut
    split at hcut
    · next tail hafter =>
      simp only [Option.some.injEq, Prod.mk.injEq] at hcut
      obtain ⟨rfl, rfl⟩ := hcut
      simpa using after?_eq_some_iff.1 hafter
    · simp only [Option.map_eq_some_iff, Prod.mk.injEq] at hcut
      obtain ⟨cut, hrest, rfl, rfl⟩ := hcut
      simp [ih hrest]

theorem length_lt_of_upTo? {mark s before rest : Text} (hcut : upTo? mark s = some (before, rest))
    (hmark : mark ≠ []) : rest.length < s.length := by
  have hlength := congrArg List.length (append_of_upTo? hcut)
  have hpos := List.length_pos_iff.2 hmark
  simp only [List.length_append] at hlength
  omega

/-- Dropping a run from the head leaves no more than was there. -/
theorem length_dropWhile_le (p : Char → Bool) (s : Text) : (s.dropWhile p).length ≤ s.length :=
  (List.dropWhile_suffix p).length_le

/-- The bytes that the UTF-8 form of a text takes. -/
def byteSize : Text → Nat
  | [] => 0
  | c :: s => c.utf8Size + byteSize s

@[simp]
theorem byteSize_append (s t : Text) : byteSize (s ++ t) = byteSize s + byteSize t := by
  induction s with
  | nil => simp [byteSize]
  | cons c s ih => simp [byteSize, ih, Nat.add_assoc]

/-- A text without its leading blanks. -/
def trimStart (s : Text) : Text := s.dropWhile isBlank

/-- A text without its trailing blanks. -/
def trimEnd (s : Text) : Text := (s.reverse.dropWhile isBlank).reverse

/-- A text without the blanks around it. -/
def trim (s : Text) : Text := s.trimStart.trimEnd

/-- The byte order mark, dropped at most once at the head of a document. -/
def dropByteOrderMark : Text → Text
  | c :: s => if c = '\ufeff' then s else c :: s
  | [] => []

end Text

/-- Every line end, however it is written, is one line feed. -/
def normaliseLineEnds : Text → Text
  | [] => []
  | '\r' :: '\n' :: s => '\n' :: normaliseLineEnds s
  | '\r' :: s => '\n' :: normaliseLineEnds s
  | c :: s => c :: normaliseLineEnds s

/-- No carriage return is left. -/
theorem not_mem_normaliseLineEnds (s : Text) : '\r' ∉ normaliseLineEnds s := by
  fun_induction normaliseLineEnds s with
  | case1 => simp
  | case2 s ih => simpa using ih
  | case3 s _ ih => simpa using ih
  | case4 c s _ hreturn ih =>
    have hne : c ≠ '\r' := fun heq => hreturn heq
    simp [ih, Ne.symm hne]

end PostMarkup
