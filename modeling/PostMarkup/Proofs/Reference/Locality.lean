import PostMarkup.Proofs.Reference.Extent

namespace PostMarkup.Reference

/-- More text after what has been read. -/
def Found.before (found : Found) (stop : Text) : Found := { found with rest := found.rest ++ stop }

section

variable {stop : Text} (hstop : ∀ c ∈ stop.head?, isReferenceCharacter c = false)

include hstop

theorem closeNumber_append (code : Nat) (s : Text) :
    closeNumber code (s ++ stop) = (closeNumber code s).before stop := by
  cases s with
  | nil =>
    cases stop with
    | nil => rfl
    | cons c stop =>
      have hc : c ≠ ';' := by
        rintro rfl
        exact absurd (hstop ';' rfl) (by decide)
      simp [closeNumber, Found.before, hc]
  | cons c s => by_cases hc : c = ';' <;> simp [closeNumber, Found.before, hc]

/-- The text after a reference does not go on with digits or letters either. -/
theorem head?_of_isReferenceCharacter {p : Char → Bool} (hp : ∀ c, p c → isReferenceCharacter c) :
    ∀ c ∈ stop.head?, p c = false := by
  intro c hc
  by_contra htrue
  have hreference := hp c (by simpa using htrue)
  rw [hstop c hc] at hreference
  contradiction

theorem readDigits_append {isDigit : Char → Bool}
    (hdigit : ∀ c, isDigit c → isReferenceCharacter c) (value : Text → Nat) (s digits : Text) :
    (match (digits ++ stop).takeWhile isDigit with
      | [] => Found.literal false ('#' :: (s ++ stop))
      | spelled => closeNumber (value spelled) ((digits ++ stop).dropWhile isDigit)) =
    (match digits.takeWhile isDigit with
      | [] => Found.literal false ('#' :: s)
      | spelled => closeNumber (value spelled) (digits.dropWhile isDigit)).before stop := by
  have hother := head?_of_isReferenceCharacter hstop hdigit
  rw [Text.takeWhile_append_of_head? hother, Text.dropWhile_append_of_head? hother]
  split
  · rfl
  · exact closeNumber_append hstop _ _

theorem readNumber_append (s : Text) : readNumber (s ++ stop) = (readNumber s).before stop := by
  cases s with
  | nil =>
    cases stop with
    | nil => rfl
    | cons c stop =>
      have hletter : c.isAlphanum = false := head?_of_isReferenceCharacter hstop
        (fun c => isReferenceCharacter_of_isAlphanum) c rfl
      have hdigit : c.isDigit = false :=
        head?_of_isReferenceCharacter hstop isReferenceCharacter_of_isDigit c rfl
      have hmark : c ≠ 'x' ∧ c ≠ 'X' := by
        constructor
        all_goals
          rintro rfl
          contradiction
      simp [readNumber, hmark, hdigit, Found.literal, Found.before]
  | cons c s =>
    simp only [List.cons_append, readNumber]
    split
    · exact readDigits_append hstop isReferenceCharacter_of_hexDigit? hexNumber (c :: s) s
    · exact readDigits_append hstop isReferenceCharacter_of_isDigit decimalNumber (c :: s) (c :: s)

theorem readWholeName?_append (s : Text) :
    readWholeName? (s ++ stop) = (readWholeName? s).map fun found => found.before stop := by
  have hother : ∀ c ∈ stop.head?, isNameCharacter c = false :=
    head?_of_isReferenceCharacter hstop fun c => isReferenceCharacter_of_isAlphanum
  unfold readWholeName?
  rw [Text.takeWhile_append_of_head? hother, Text.dropWhile_append_of_head? hother]
  cases hrest : s.dropWhile isNameCharacter with
  | nil =>
    cases stop with
    | nil => rfl
    | cons c stop =>
      have hc : c ≠ ';' := by
        rintro rfl
        exact absurd (hstop ';' rfl) (by decide)
      simp [hc]
  | cons c rest =>
    by_cases hc : c = ';'
    · subst hc
      cases hnamed : named? (s.takeWhile isNameCharacter) <;> simp [Found.before]
    · simp [hc]

theorem bare?_append (s : Text) :
    bare? (s ++ stop) = (bare? s).map fun cut => (cut.1, cut.2 ++ stop) := by
  have hother : ∀ c ∈ stop.head?, isNameCharacter c = false :=
    head?_of_isReferenceCharacter hstop fun c => isReferenceCharacter_of_isAlphanum
  have hnames := isNameCharacter_of_mem_bareNames
  unfold bare?
  generalize bareNames = names at hnames
  induction names with
  | nil => rfl
  | cons name names ih =>
    obtain ⟨hname, hnames⟩ := List.forall_mem_cons.1 hnames
    rw [List.findSome?_cons, List.findSome?_cons, Text.after?_append_of_head? hother hname, ih hnames]
    cases Text.after? name.toList s <;> rfl

theorem readName_append (s : Text) :
    readName .runningText (s ++ stop) = (readName .runningText s).before stop := by
  have hother : ∀ c ∈ stop.head?, isNameCharacter c = false :=
    head?_of_isReferenceCharacter hstop fun c => isReferenceCharacter_of_isAlphanum
  unfold readName
  rw [readWholeName?_append hstop]
  cases readWholeName? s with
  | some found => rfl
  | none =>
    simp only [Option.map_none, Option.getD_none, readBareName, bare?_append hstop]
    cases bare? s with
    | some cut => rfl
    | none =>
      rw [Text.dropWhile_append_of_head? hother]
      have hhead : ((s.dropWhile isNameCharacter ++ stop).head? ≠ some ';') =
          ((s.dropWhile isNameCharacter).head? ≠ some ';') := by
        cases s.dropWhile isNameCharacter with
        | cons c rest => rfl
        | nil =>
          have hne : stop.head? ≠ some ';' := fun heq => absurd (hstop ';' heq) (by decide)
          simp [hne]
      simp only [Option.map_none, hhead, Found.literal, Found.before]

/-- A reference in running text is read alike without the text after it, if that begins with no
    character of references. -/
theorem read_append (s : Text) :
    read .runningText (s ++ stop) = (read .runningText s).before stop := by
  cases s with
  | nil =>
    cases stop with
    | nil => rfl
    | cons c stop =>
      have hname : isNameCharacter c = false := head?_of_isReferenceCharacter hstop
        (fun c => isReferenceCharacter_of_isAlphanum) c rfl
      have hmark : c ≠ '#' := by
        rintro rfl
        exact absurd (hstop '#' rfl) (by decide)
      rw [List.nil_append]
      unfold read
      split
      · next heq => exact absurd (List.cons.inj heq).1 hmark
      · next heq =>
        obtain ⟨rfl, rfl⟩ := List.cons.inj heq
        simp [hname, Found.literal, Found.before]
      · contradiction
  | cons c s =>
    by_cases hmark : c = '#'
    · subst hmark
      exact readNumber_append hstop s
    · by_cases hname : isNameCharacter c
      · simpa [read, hmark, hname] using readName_append hstop (c :: s)
      · simp [read, hname, Found.literal, Found.before]

end

theorem length_le_utf8ByteSize (s : String) : s.length ≤ s.utf8ByteSize := by
  rw [← String.length_toList, ← String.utf8Len_toList]
  induction s.toList with
  | nil => exact Nat.le_refl _
  | cons c l ih =>
    have hpos := Char.utf8Size_pos c
    rw [List.length_cons, String.utf8Len_cons]
    omega

/-- Every name takes at least two bytes, and none stands for more than three characters. Only the
    long entries have to be decoded: three bytes hold no more than three. -/
theorem length_of_mem_namesFrom {c : Char} {entry : String × String} (hentry : entry ∈ namesFrom c) :
    2 ≤ entry.1.utf8ByteSize ∧ entry.2.length ≤ 3 := by
  have hlengths : letters.all (fun c => (namesFrom c).all fun entry =>
      Nat.ble 2 entry.1.utf8ByteSize &&
        (Nat.ble entry.2.utf8ByteSize 3 || Nat.ble entry.2.length 3)) = true := by
    decide +kernel
  have hc : c ∈ letters := by
    by_contra hc
    simp [namesFrom_of_not_mem_letters hc] at hentry
  have hboth := List.all_eq_true.1 (List.all_eq_true.1 hlengths c hc) entry hentry
  simp only [Bool.and_eq_true, Bool.or_eq_true, Nat.ble_eq] at hboth
  obtain ⟨hname, hbytes | hlength⟩ := hboth
  · exact ⟨hname, Nat.le_trans (length_le_utf8ByteSize entry.2) hbytes⟩
  · exact ⟨hname, hlength⟩

theorem utf8Size_of_isNameCharacter {c : Char} (hc : isNameCharacter c) : c.utf8Size = 1 := by
  rw [Char.utf8Size_eq_one_iff]
  simp only [isNameCharacter, Char.isAlphanum, Char.isAlpha, Char.isUpper, Char.isLower,
    Char.isDigit, Bool.or_eq_true, Bool.and_eq_true, decide_eq_true_eq, ge_iff_le,
    UInt32.le_iff_toNat_le, Char.reduceVal, UInt32.reduceToNat] at hc ⊢
  omega

theorem lengths_of_named? {name text : Text} (hname : ∀ c ∈ name, isNameCharacter c)
    (hnamed : named? name = some text) : 2 ≤ name.length ∧ text.length ≤ 3 := by
  cases name with
  | nil => exact absurd hnamed (by simp [named?])
  | cons c name =>
    obtain ⟨spelled, hlookup, rfl⟩ := Option.map_eq_some_iff.1 hnamed
    obtain ⟨before, after, hnames, -⟩ := List.lookup_eq_some_iff.1 hlookup
    have hentry : (String.ofList (c :: name), spelled) ∈ namesFrom c := by
      rw [hnames]
      simp
    obtain ⟨hbytes, hlength⟩ := length_of_mem_namesFrom hentry
    refine ⟨?_, String.length_toList.trans_le hlength⟩
    cases name with
    | cons d name => simp
    | nil =>
      have hsize := utf8Size_of_isNameCharacter (hname c (by simp))
      simp [hsize] at hbytes

/-- The names that stand without a semicolon take two letters or more, and stand for at most two
    characters. -/
theorem lengths_of_bare? {s name rest : Text} (hbare : bare? s = some (name, rest)) :
    s = name ++ rest ∧ 2 ≤ name.length ∧ ((named? name).getD []).length ≤ 2 := by
  have hall : bareNames.all (fun name => Nat.ble 2 name.toList.length &&
      Nat.ble ((named? name.toList).getD []).length 2) = true := by
    decide +kernel
  obtain ⟨spelling, hspelling, hfound⟩ := List.exists_of_findSome?_eq_some hbare
  simp only [Option.map_eq_some_iff, Prod.mk.injEq] at hfound
  obtain ⟨tail, hafter, rfl, rfl⟩ := hfound
  have hlengths := List.all_eq_true.1 hall spelling hspelling
  simp only [Bool.and_eq_true, Nat.ble_eq] at hlengths
  exact ⟨Text.after?_eq_some_iff.1 hafter, hlengths⟩

/-- Whether an ampersand before this text begins a reference. If not, it stands for itself and takes
    nothing of the text. -/
def Begins (s : Text) : Prop := (read .runningText s).rest ≠ s

instance : DecidablePred Begins := fun s =>
  inferInstanceAs (Decidable ((read .runningText s).rest ≠ s))

/-- What was found is the ampersand alone, or is shorter than what was read for it. -/
def Found.Shrinks (found : Found) (s : Text) : Prop :=
  found.text = ['&'] ∧ found.rest = s ∨
    found.rest.length < s.length ∧ found.text.length + found.rest.length ≤ s.length

theorem shrinks_literal (inOrder : Bool) (s : Text) : (Found.literal inOrder s).Shrinks s :=
  .inl ⟨rfl, rfl⟩

theorem shrinks_readNumber (s : Text) : (readNumber s).Shrinks ('#' :: s) := by
  have hdigits (isDigit : Char → Bool) (value : Text → Nat) (digits : Text)
      (hle : digits.length ≤ s.length) :
      (match digits.takeWhile isDigit with
        | [] => Found.literal false ('#' :: s)
        | spelled => closeNumber (value spelled) (digits.dropWhile isDigit)).Shrinks ('#' :: s) := by
    split
    · exact shrinks_literal false _
    · next hspelled =>
      have hclose := length_closeNumber_le (value (digits.takeWhile isDigit))
        (digits.dropWhile isDigit)
      have hdrop := Text.length_dropWhile_le isDigit digits
      have hone : (closeNumber (value (digits.takeWhile isDigit))
          (digits.dropWhile isDigit)).text.length = 1 := by
        simp only [closeNumber]
        split <;> rfl
      right
      rw [List.length_cons]
      omega
  unfold readNumber
  cases s with
  | nil => exact shrinks_literal false _
  | cons c digits =>
    simp only
    split
    · exact hdigits _ _ digits (by simp)
    · exact hdigits _ _ (c :: digits) (Nat.le_refl _)

theorem shrinks_readName (s : Text) : (readName .runningText s).Shrinks s := by
  unfold readName
  cases hwhole : readWholeName? s with
  | some found =>
    unfold readWholeName? at hwhole
    split at hwhole
    · next rest hsemicolon =>
      obtain ⟨text, hnamed, rfl⟩ := Option.map_eq_some_iff.1 hwhole
      obtain ⟨hname, htext⟩ := lengths_of_named? (fun c => Text.of_mem_takeWhile) hnamed
      have hcut := congrArg List.length (List.takeWhile_append_dropWhile (p := isNameCharacter) (l := s))
      rw [hsemicolon, List.length_append, List.length_cons] at hcut
      right
      simp only [Option.getD_some]
      omega
    · contradiction
  | none =>
    simp only [Option.getD_none, readBareName]
    cases hbare : bare? s with
    | none => exact shrinks_literal _ s
    | some cut =>
      obtain ⟨name, rest⟩ := cut
      obtain ⟨rfl, hname, htext⟩ := lengths_of_bare? hbare
      right
      simp only [reduceCtorEq, decide_false, Bool.false_and, Bool.false_eq_true, if_false,
        List.length_append]
      omega

/-- A reference stands for less text than it takes, its ampersand counted. -/
theorem shrinks_read (s : Text) : (read .runningText s).Shrinks s := by
  unfold read
  split
  · exact shrinks_readNumber _
  · split
    · exact shrinks_readName _
    · exact shrinks_literal true _
  · exact shrinks_literal true _

theorem text_of_not_begins {s : Text} (hs : ¬ Begins s) : (read .runningText s).text = ['&'] := by
  have hrest : (read .runningText s).rest = s := by simpa [Begins] using hs
  obtain ⟨htext, -⟩ | ⟨hlength, -⟩ := shrinks_read s
  · exact htext
  · rw [hrest] at hlength
    omega

theorem length_le_of_begins {s : Text} (hs : Begins s) :
    (read .runningText s).rest.length < s.length ∧
      (read .runningText s).text.length + (read .runningText s).rest.length ≤ s.length := by
  obtain ⟨-, hrest⟩ | hlength := shrinks_read s
  · exact absurd hrest hs
  · exact hlength

end PostMarkup.Reference
