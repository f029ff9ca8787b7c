import Mathlib
import PostMarkup.Proofs.Text.Cutting
import PostMarkup.Reference.Reading

namespace PostMarkup.Reference

/-- The characters of a reference after its ampersand. -/
def isReferenceCharacter (c : Char) : Bool := c.isAlphanum || c = '#' || c = ';'

/-- What has been read of a text is characters of a reference. -/
def Takes (s rest : Text) : Prop := ∃ taken, s = taken ++ rest ∧ ∀ c ∈ taken, isReferenceCharacter c

theorem Takes.refl (s : Text) : Takes s s := ⟨[], rfl, by simp⟩

theorem Takes.trans {s t rest : Text} (h : Takes s t) (hrest : Takes t rest) : Takes s rest := by
  obtain ⟨taken, rfl, htaken⟩ := h
  obtain ⟨more, rfl, hmore⟩ := hrest
  refine ⟨taken ++ more, (List.append_assoc _ _ _).symm, fun c hc => ?_⟩
  obtain hc | hc := List.mem_append.1 hc
  · exact htaken c hc
  · exact hmore c hc

theorem Takes.cons {c : Char} {s rest : Text} (hc : isReferenceCharacter c) (h : Takes s rest) :
    Takes (c :: s) rest := by
  obtain ⟨taken, rfl, htaken⟩ := h
  exact ⟨c :: taken, rfl, by simpa [hc] using htaken⟩

theorem takes_dropWhile {p : Char → Bool} (hp : ∀ c, p c → isReferenceCharacter c) (s : Text) :
    Takes s (s.dropWhile p) :=
  ⟨s.takeWhile p, List.takeWhile_append_dropWhile.symm, fun c hc => hp c (Text.of_mem_takeWhile hc)⟩

theorem isReferenceCharacter_of_isAlphanum {c : Char} (hc : c.isAlphanum) :
    isReferenceCharacter c := by
  simp [isReferenceCharacter, hc]

theorem isReferenceCharacter_of_isDigit (c : Char) (hc : c.isDigit) : isReferenceCharacter c :=
  isReferenceCharacter_of_isAlphanum (by simp [Char.isAlphanum, hc])

theorem isReferenceCharacter_of_hexDigit? (c : Char) (hc : (hexDigit? c).isSome) :
    isReferenceCharacter c := by
  apply isReferenceCharacter_of_isAlphanum
  unfold hexDigit? at hc
  split at hc
  · next hdigit => simp [Char.isAlphanum, hdigit]
  · split at hc
    · next hletter =>
      obtain ⟨hfirst, hlast⟩ : 'a' ≤ c.toLower ∧ c.toLower ≤ 'f' := by simpa using hletter
      have hlower : c.toLower.isLower := by
        simp only [Char.isLower, Bool.and_eq_true, decide_eq_true_eq]
        exact ⟨hfirst, Char.le_trans hlast (by decide)⟩
      rw [Char.isLower_toLower_eq_isAlpha] at hlower
      simp [Char.isAlphanum, hlower]
    · contradiction

theorem takes_closeNumber (code : Nat) (s : Text) : Takes s (closeNumber code s).rest := by
  simp only [closeNumber]
  split
  · exact (Takes.refl _).cons rfl
  · exact .refl _

theorem takes_readDigits {isDigit : Char → Bool} (hdigit : ∀ c, isDigit c → isReferenceCharacter c)
    (value : Text → Nat) {s digits : Text} (hdigits : Takes s digits) :
    Takes ('#' :: s) (match digits.takeWhile isDigit with
      | [] => Found.literal false ('#' :: s)
      | spelled => closeNumber (value spelled) (digits.dropWhile isDigit)).rest := by
  split
  · exact .refl _
  · have hspelled := hdigits.trans (takes_dropWhile hdigit digits)
    exact (hspelled.trans (takes_closeNumber _ _)).cons rfl

theorem takes_readNumber (s : Text) : Takes ('#' :: s) (readNumber s).rest := by
  unfold readNumber
  cases s with
  | nil => exact .refl _
  | cons c digits =>
    simp only
    split
    · next hmark =>
      have hc : isReferenceCharacter c := by
        obtain rfl | rfl : c = 'x' ∨ c = 'X' := by simpa using hmark
        all_goals rfl
      exact takes_readDigits isReferenceCharacter_of_hexDigit? _ ((Takes.refl _).cons hc)
    · exact takes_readDigits isReferenceCharacter_of_isDigit _ (.refl _)

theorem isNameCharacter_of_mem_bareNames :
    ∀ name ∈ bareNames, ∀ c ∈ name.toList, isNameCharacter c := by
  have hall : bareNames.all (fun name => name.toList.all isNameCharacter) = true := by
    decide +kernel
  simpa using hall

theorem takes_readName (place : Context) (s : Text) : Takes s (readName place s).rest := by
  unfold readName
  cases hwhole : readWholeName? s with
  | some found =>
    unfold readWholeName? at hwhole
    split at hwhole
    · next rest hsemicolon =>
      obtain ⟨text, -, rfl⟩ := Option.map_eq_some_iff.1 hwhole
      have hname := takes_dropWhile (p := isNameCharacter)
        (fun c hc => isReferenceCharacter_of_isAlphanum hc) s
      refine Takes.trans hname ?_
      rw [hsemicolon]
      exact (Takes.refl rest).cons rfl
    · contradiction
  | none =>
    simp only [Option.getD_none, readBareName]
    split
    · exact .refl s
    · next name rest hbare =>
      split
      · exact .refl s
      · obtain ⟨spelling, hspelling, hfound⟩ := List.exists_of_findSome?_eq_some hbare
        simp only [Option.map_eq_some_iff, Prod.mk.injEq] at hfound
        obtain ⟨tail, hafter, -, rfl⟩ := hfound
        refine ⟨spelling.toList, Text.after?_eq_some_iff.1 hafter, fun c hc => ?_⟩
        exact isReferenceCharacter_of_isAlphanum
          (isNameCharacter_of_mem_bareNames spelling hspelling c hc)

/-- Reading a reference takes nothing but characters of references. -/
theorem takes_read (place : Context) (s : Text) : Takes s (read place s).rest := by
  unfold read
  split
  · exact takes_readNumber _
  · split
    · exact takes_readName place _
    · exact .refl _
  · exact .refl _

/-- The letters that names begin with. -/
def letters : Text :=
  ['A', 'B', 'C', 'D', 'E', 'F', 'G', 'H', 'I', 'J', 'K', 'L', 'M', 'N', 'O', 'P', 'Q',
   'R', 'S', 'T', 'U', 'V', 'W', 'X', 'Y', 'Z', 'a', 'b', 'c', 'd', 'e', 'f', 'g', 'h',
   'i', 'j', 'k', 'l', 'm', 'n', 'o', 'p', 'q', 'r', 's', 't', 'u', 'v', 'w', 'x', 'y',
   'z']

theorem namesFrom_of_not_mem_letters {c : Char} (hc : c ∉ letters) : namesFrom c = [] := by
  unfold namesFrom
  split <;> first | rfl | exact absurd (by decide) hc

theorem zero_mem_of_null_mem {s : String} (hs : '\x00' ∈ s.toList) :
    0 ∈ s.toByteArray.data.toList := by
  rw [← String.utf8Encode_toList, List.utf8Encode]
  simp only [List.data_toByteArray, List.mem_flatMap]
  exact ⟨_, hs, by decide⟩

/-- The tables have no zero byte. The bytes of a string are at hand, while its characters have to be
    decoded. -/
theorem zero_not_mem_of_mem_namesFrom {c : Char} {entry : String × String}
    (hentry : entry ∈ namesFrom c) : 0 ∉ entry.2.toByteArray.data.toList := by
  have hbytes : letters.all (fun c => (namesFrom c).all fun entry =>
      entry.2.toByteArray.data.toList.all fun byte => Nat.blt 0 byte.toNat) = true := by
    decide +kernel
  have hc : c ∈ letters := by
    by_cases hc : c ∈ letters
    · exact hc
    · simp [namesFrom_of_not_mem_letters hc] at hentry
  intro hzero
  have hpos := List.all_eq_true.1 (List.all_eq_true.1 (List.all_eq_true.1 hbytes c hc) entry hentry)
    0 hzero
  exact absurd hpos (by decide)

theorem null_not_mem_of_named? {name text : Text} (hnamed : named? name = some text) :
    '\x00' ∉ text := by
  cases name with
  | nil => contradiction
  | cons c name =>
    obtain ⟨spelled, hlookup, rfl⟩ := Option.map_eq_some_iff.1 hnamed
    obtain ⟨before, after, hnames, -⟩ := List.lookup_eq_some_iff.1 hlookup
    have hentry : (String.ofList (c :: name), spelled) ∈ namesFrom c := by
      rw [hnames]
      simp
    exact fun hnull => zero_not_mem_of_mem_namesFrom hentry (zero_mem_of_null_mem hnull)

theorem ofNumber_ne_null (code : Nat) : (ofNumber code).1 ≠ '\x00' := by
  unfold ofNumber
  split
  · decide
  · next hcode =>
    have hwindows : ∀ entry ∈ windowsCharacters, entry.2 ≠ '\x00' := by decide
    split
    · next c hlookup =>
      obtain ⟨before, after, hcharacters, -⟩ := List.lookup_eq_some_iff.1 hlookup
      exact hwindows (code, c) (by simp [hcharacters])
    · intro hnull
      simp only [Bool.or_eq_true, decide_eq_true_eq, not_or] at hcode
      obtain ⟨hpos, hvalid⟩ := hcode
      replace hvalid : code.isValidChar := by
        simpa only [Bool.not_eq_true', decide_eq_false_iff_not, Decidable.not_not] using hvalid
      have hnat : (Char.ofNat code).toNat = code := by rw [Char.toNat_ofNat, if_pos hvalid]
      rw [show Char.ofNat code = '\x00' from hnull] at hnat
      exact hpos hnat.symm

theorem null_not_mem_closeNumber (code : Nat) (s : Text) :
    '\x00' ∉ (closeNumber code s).text := by
  have hne := ofNumber_ne_null code
  simp only [closeNumber]
  split <;> simpa using hne.symm

theorem null_not_mem_readNumber (s : Text) : '\x00' ∉ (readNumber s).text := by
  unfold readNumber
  cases s with
  | nil => decide
  | cons c digits =>
    simp only
    split <;> split <;> first | exact null_not_mem_closeNumber _ _ | simp [Found.literal]

theorem null_not_mem_readName (place : Context) (s : Text) :
    '\x00' ∉ (readName place s).text := by
  unfold readName
  cases hwhole : readWholeName? s with
  | some found =>
    unfold readWholeName? at hwhole
    split at hwhole
    · obtain ⟨text, hnamed, rfl⟩ := Option.map_eq_some_iff.1 hwhole
      exact null_not_mem_of_named? hnamed
    · contradiction
  | none =>
    simp only [Option.getD_none, readBareName]
    split
    · simp [Found.literal]
    · next name rest hbare =>
      split
      · simp [Found.literal]
      · cases hnamed : named? name with
        | none => simp
        | some text => exact null_not_mem_of_named? hnamed

/-- No reference stands for U+0000. -/
theorem null_not_mem_read (place : Context) (s : Text) : '\x00' ∉ (read place s).text := by
  unfold read
  split
  · exact null_not_mem_readNumber _
  · split
    · exact null_not_mem_readName place _
    · simp [Found.literal]
  · simp [Found.literal]

/-- A whole name is read as what it stands for, whatever comes after it. -/
theorem read_of_named? {name text : Text} (hname : ∀ c ∈ name, isNameCharacter c)
    (hnamed : named? name = some text) (place : Context) (s : Text) :
    read place (name ++ ';' :: s) = ⟨text, true, s⟩ := by
  have hstop : isNameCharacter ';' = false := rfl
  have hwhole : readWholeName? (name ++ ';' :: s) = some ⟨text, true, s⟩ := by
    simp only [readWholeName?, Text.takeWhile_append_stop hname hstop,
      Text.dropWhile_append_stop hname hstop, hnamed, Option.map_some]
  cases name with
  | nil => exact absurd hnamed (by simp [named?])
  | cons c name =>
    have hc : isNameCharacter c := hname c (by simp)
    have hne : c ≠ '#' := by
      rintro rfl
      contradiction
    rw [List.cons_append] at hwhole ⊢
    unfold read
    split
    · next heq => exact absurd (List.cons.inj heq).1 hne
    · next heq =>
      obtain ⟨rfl, rfl⟩ := List.cons.inj heq
      rw [if_pos hc, readName, hwhole, Option.getD_some]
    · next heq => exact absurd heq (by simp)

/-- The characters that are written as references, and the names for them. -/
def escapes : List (Char × Text) :=
  [('<', "lt".toList), ('>', "gt".toList), ('&', "amp".toList), ('\'', "apos".toList),
   ('"', "quot".toList)]

theorem named?_of_mem_escapes {c : Char} {name : Text} (hescape : (c, name) ∈ escapes) :
    (∀ c ∈ name, isNameCharacter c) ∧ named? name = some [c] := by
  have hall : escapes.all (fun entry => entry.2.all isNameCharacter &&
      named? entry.2 = some [entry.1]) = true := by decide +kernel
  have hentry := List.all_eq_true.1 hall (c, name) hescape
  simpa only [Bool.and_eq_true, List.all_eq_true, decide_eq_true_eq] using hentry

theorem read_escape {c : Char} {name : Text} (hescape : (c, name) ∈ escapes) (place : Context)
    (s : Text) : read place (name ++ ';' :: s) = ⟨[c], true, s⟩ := by
  obtain ⟨hname, hnamed⟩ := named?_of_mem_escapes hescape
  exact read_of_named? hname hnamed place s

/-- Characters that stand for themselves, and references by whole names. -/
inductive InOrder : Text → Prop
  | nil : InOrder []
  | character {c : Char} {s : Text} (hc : c ∉ "<&\x00\r".toList) (hs : InOrder s) : InOrder (c :: s)
  | reference {name text s : Text} (hname : ∀ c ∈ name, isNameCharacter c)
      (hnamed : named? name = some text) (hs : InOrder s) : InOrder ('&' :: (name ++ ';' :: s))

theorem InOrder.append {s t : Text} (hs : InOrder s) (ht : InOrder t) : InOrder (s ++ t) := by
  induction hs with
  | nil => exact ht
  | character hc _ ih => exact .character hc ih
  | reference hname hnamed _ ih =>
    rw [List.cons_append, List.append_assoc, List.cons_append]
    exact .reference hname hnamed ih

theorem inOrder_of_named? {name text : Text} (hname : ∀ c ∈ name, isNameCharacter c)
    (hnamed : named? name = some text) : InOrder ('&' :: name ++ [';']) :=
  .reference hname hnamed .nil

/-- No character of text in order has to be normalised or escaped. -/
theorem InOrder.not_mem {s : Text} (hs : InOrder s) : '<' ∉ s ∧ '\r' ∉ s := by
  have hname {name : Text} (hname : ∀ c ∈ name, isNameCharacter c) : '<' ∉ name ∧ '\r' ∉ name := by
    constructor
    all_goals
      intro hmem
      exact absurd (hname _ hmem) (by decide)
  induction hs with
  | nil => simp
  | character hc _ ih =>
    simp only [String.reduceToList, List.mem_cons, List.not_mem_nil, or_false, not_or] at hc
    simp [ih, Ne.symm hc.1, Ne.symm hc.2.2.2]
  | reference hletters _ _ ih => simp [ih, hname hletters]

end PostMarkup.Reference
