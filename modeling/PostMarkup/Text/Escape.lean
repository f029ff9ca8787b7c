import PostMarkup.Text.Basic

namespace PostMarkup

/-- Hides the angle brackets only; an ampersand stays as it is. -/
def escapeAngles (s : Text) : Text :=
  s.flatMap fun
    | '<' => "&lt;".toList
    | '>' => "&gt;".toList
    | c => [c]

/-- Hides everything that markup can begin with in running text. -/
def escapeText (s : Text) : Text :=
  s.flatMap fun
    | '<' => "&lt;".toList
    | '>' => "&gt;".toList
    | '&' => "&amp;".toList
    | c => [c]

/-- Hides both quotes as well, for a value between either kind of them. -/
def escapeValue (s : Text) : Text :=
  s.flatMap fun
    | '<' => "&lt;".toList
    | '>' => "&gt;".toList
    | '&' => "&amp;".toList
    | '\'' => "&apos;".toList
    | '"' => "&quot;".toList
    | c => [c]

@[simp]
theorem escapeText_append (s t : Text) : escapeText (s ++ t) = escapeText s ++ escapeText t :=
  List.flatMap_append

@[simp]
theorem escapeAngles_append (s t : Text) :
    escapeAngles (s ++ t) = escapeAngles s ++ escapeAngles t :=
  List.flatMap_append

end PostMarkup
