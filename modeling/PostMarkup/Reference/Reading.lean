import PostMarkup.Reference.Lookup

namespace PostMarkup.Reference

/-- Where a reference stands. In an attribute value, older addresses such as `?a=1&copy=2` keep
    their ampersands. -/
inductive Context
  | runningText
  | attributeValue
deriving DecidableEq

/-- What was read after an ampersand. -/
structure Found where
  text : Text
  inOrder : Bool
  rest : Text

/-- The ampersand stands for itself. -/
def Found.literal (inOrder : Bool) (s : Text) : Found := ⟨['&'], inOrder, s⟩

/-- The reference to a number, after its digits. The semicolon may be missing. -/
def closeNumber (code : Nat) (s : Text) : Found :=
  let (c, inOrder) := ofNumber code
  match s with
  | ';' :: rest => ⟨[c], inOrder, rest⟩
  | _ => ⟨[c], false, s⟩

/-- A numeric reference, from after its `#`. -/
def readNumber (s : Text) : Found :=
  let read (isDigit : Char → Bool) (value : Text → Nat) (digits : Text) : Found :=
    match digits.takeWhile isDigit with
    | [] => .literal false ('#' :: s)
    | spelled => closeNumber (value spelled) (digits.dropWhile isDigit)
  match s with
  | c :: digits =>
    if c = 'x' || c = 'X' then read (fun c => (hexDigit? c).isSome) hexNumber digits
    else read Char.isDigit decimalNumber s
  | [] => .literal false ['#']

/-- A reference by a name with its semicolon. -/
def readWholeName? (s : Text) : Option Found :=
  match s.dropWhile isNameCharacter with
  | ';' :: rest => (named? (s.takeWhile isNameCharacter)).map fun text => ⟨text, true, rest⟩
  | _ => none

/-- A reference without its semicolon: of the names that allow it the longest fits. -/
def readBareName (place : Context) (s : Text) : Found :=
  match bare? s with
  | none => .literal ((s.dropWhile isNameCharacter).head? ≠ some ';') s
  | some (name, rest) =>
    if place = .attributeValue && rest.head?.any (fun c => c = '=' || isNameCharacter c) then
      .literal true s
    else ⟨(named? name).getD [], false, rest⟩

/-- A reference by name. -/
def readName (place : Context) (s : Text) : Found :=
  (readWholeName? s).getD (readBareName place s)

/-- The reference after an ampersand. -/
def read (place : Context) (s : Text) : Found :=
  match s with
  | '#' :: digits => readNumber digits
  | c :: _ => if isNameCharacter c then readName place s else .literal true s
  | [] => .literal true []

theorem length_closeNumber_le (code : Nat) (s : Text) :
    (closeNumber code s).rest.length ≤ s.length := by
  simp only [closeNumber]
  split <;> simp

theorem length_readNumber_le (s : Text) : (readNumber s).rest.length ≤ s.length + 1 := by
  have hread (isDigit : Char → Bool) (value : Text → Nat) (digits : Text)
      (hdigits : digits.length ≤ s.length) :
      (match digits.takeWhile isDigit with
        | [] => Found.literal false ('#' :: s)
        | spelled => closeNumber (value spelled) (digits.dropWhile isDigit)).rest.length ≤
        s.length + 1 := by
    split
    · simp [Found.literal]
    · have hclose := length_closeNumber_le (value (digits.takeWhile isDigit))
        (digits.dropWhile isDigit)
      have hdrop := Text.length_dropWhile_le isDigit digits
      omega
  unfold readNumber
  cases s with
  | nil => simp [Found.literal]
  | cons c digits =>
    simp only
    split
    · exact hread _ _ _ (by simp)
    · exact hread _ _ _ (by simp)

theorem length_le_of_readWholeName? {s : Text} {found : Found}
    (hread : readWholeName? s = some found) : found.rest.length ≤ s.length := by
  simp only [readWholeName?] at hread
  split at hread
  · next hsemicolon =>
    obtain ⟨text, -, rfl⟩ := Option.map_eq_some_iff.1 hread
    have hdrop := Text.length_dropWhile_le isNameCharacter s
    rw [hsemicolon] at hdrop
    exact Nat.le_of_succ_le hdrop
  · contradiction

theorem length_readBareName_le (place : Context) (s : Text) :
    (readBareName place s).rest.length ≤ s.length := by
  simp only [readBareName]
  split
  · simp [Found.literal]
  · next hbare =>
    have hlt := length_lt_of_bare? hbare
    split
    · simp [Found.literal]
    · exact Nat.le_of_lt hlt

theorem length_readName_le (place : Context) (s : Text) :
    (readName place s).rest.length ≤ s.length := by
  unfold readName
  cases hwhole : readWholeName? s with
  | none => exact length_readBareName_le place s
  | some found => exact length_le_of_readWholeName? hwhole

/-- Nothing is put back beyond what followed the ampersand. -/
theorem length_read_le (place : Context) (s : Text) : (read place s).rest.length ≤ s.length := by
  unfold read
  split
  · exact length_readNumber_le _
  · split
    · exact length_readName_le place _
    · simp [Found.literal]
  · simp [Found.literal]

end PostMarkup.Reference
