import PostMarkup.Reference.Names
import PostMarkup.Text.Basic

namespace PostMarkup.Reference

/-- Characters of names; no name has another one. -/
def isNameCharacter (c : Char) : Bool := c.isAlphanum

/-- The text that a whole name stands for. -/
def named? (name : Text) : Option Text :=
  match name with
  | [] => none
  | c :: _ => ((namesFrom c).lookup (String.ofList name)).map String.toList

/-- The longest name at the head of a text that needs no semicolon, and the text after it. -/
def bare? (s : Text) : Option (Text × Text) :=
  bareNames.findSome? fun name => (Text.after? name.toList s).map fun rest => (name.toList, rest)

theorem length_lt_of_bare? {s name rest : Text} (hbare : bare? s = some (name, rest)) :
    rest.length < s.length := by
  obtain ⟨spelling, hspelling, hfound⟩ := List.exists_of_findSome?_eq_some hbare
  simp only [Option.map_eq_some_iff, Prod.mk.injEq] at hfound
  obtain ⟨tail, hafter, -, rfl⟩ := hfound
  have hlength := congrArg List.length (Text.after?_eq_some_iff.1 hafter)
  have hnonempty : ∀ spelling ∈ bareNames, 0 < spelling.toList.length := by decide +kernel
  have hpos := hnonempty spelling hspelling
  simp only [List.length_append] at hlength
  omega

/-- The characters of the Windows code page that older documents meant by the numbers 128 to 159.
    Five of the numbers have none. -/
def windowsCharacters : List (Nat × Char) :=
  [(0x80, '€'), (0x82, '‚'), (0x83, 'ƒ'), (0x84, '„'), (0x85, '…'), (0x86, '†'), (0x87, '‡'),
   (0x88, 'ˆ'), (0x89, '‰'), (0x8A, 'Š'), (0x8B, '‹'), (0x8C, 'Œ'), (0x8E, 'Ž'), (0x91, '‘'),
   (0x92, '’'), (0x93, '“'), (0x94, '”'), (0x95, '•'), (0x96, '–'), (0x97, '—'), (0x98, '˜'),
   (0x99, '™'), (0x9A, 'š'), (0x9B, '›'), (0x9C, 'œ'), (0x9E, 'ž'), (0x9F, 'Ÿ')]

/-- What stands for a character that no number or byte can mean. -/
def replacementCharacter : Char := '\ufffd'

/-- Numbers that are no character of text: control characters other than tab, line feed and form
    feed, and the code points that Unicode keeps free. -/
def isDiscouraged (code : Nat) : Bool :=
  (0x01 ≤ code && code ≤ 0x08) || code = 0x0B || (0x0D ≤ code && code ≤ 0x1F) ||
    (0x7F ≤ code && code ≤ 0x9F) || (0xFDD0 ≤ code && code ≤ 0xFDEF) || 0xFFFE ≤ code % 0x10000

/-- The character that a number stands for, and whether the number is in order. -/
def ofNumber (code : Nat) : Char × Bool :=
  if code = 0 || !code.isValidChar then (replacementCharacter, false)
  else
    match windowsCharacters.lookup code with
    | some c => (c, false)
    | none => (Char.ofNat code, !isDiscouraged code)

/-- The value of a hexadecimal digit. -/
def hexDigit? (c : Char) : Option Nat :=
  if c.isDigit then some (c.toNat - '0'.toNat)
  else if 'a' ≤ c.toLower && c.toLower ≤ 'f' then some (c.toLower.toNat - 'a'.toNat + 10)
  else none

/-- The number that hexadecimal digits spell; other characters count as zero. -/
def hexNumber (digits : Text) : Nat :=
  digits.foldl (fun value c => value * 16 + (hexDigit? c).getD 0) 0

/-- The number that decimal digits spell. -/
def decimalNumber (digits : Text) : Nat :=
  digits.foldl (fun value c => value * 10 + (c.toNat - '0'.toNat)) 0

end PostMarkup.Reference
