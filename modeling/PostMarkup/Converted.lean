import PostMarkup.Dialect.Event

namespace PostMarkup

/-- What can go wrong for a caller. -/
inductive Failure
  /-- A dialect document has a fault at a byte position. -/
  | malformed (position : Nat) (fault : Dialect.Fault)
  | unknownFormat (name : Text)
deriving DecidableEq

/-- A number in decimal digits. -/
def decimal (n : Nat) : Text := Nat.toDigits 10 n

def Failure.message : Failure → Text
  | malformed position fault =>
    "XML decoding error at byte ".toList ++ decimal position ++ ": ".toList ++ fault.message
  | unknownFormat name => "Unknown content format: ".toList ++ name

/-- A converted document, whole or up to the failure. -/
structure Converted where
  html : Text
  failure : Option Failure := none
deriving DecidableEq

namespace Converted

/-- The strict view, in which a failure leaves no output. -/
def strict (converted : Converted) : Except Failure Text :=
  match converted.failure with
  | none => .ok converted.html
  | some failure => .error failure

/-- The strict view keeps the output exactly when there is no failure. -/
theorem strict_eq_ok_iff {converted : Converted} {html : Text} :
    converted.strict = .ok html ↔ converted = ⟨html, none⟩ := by
  obtain ⟨written, failure⟩ := converted
  cases failure <;> simp [strict]

end Converted

end PostMarkup
