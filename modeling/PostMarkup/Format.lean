import PostMarkup.Dialect.Conversion
import PostMarkup.Html.Writing
import PostMarkup.Markdown.BlockHtml

namespace PostMarkup

inductive Format
  | dialect
  | html
  | markdown
deriving DecidableEq

/-- What every stored dialect document begins with. -/
def legacyProlog : Text := "<?xml version=\"1.0\"?>".toList

namespace Format

def name : Format → Text
  | dialect => "dialect".toList
  | html => "html".toList
  | markdown => "markdown".toList

/-- The format with a name. Two formats have older names, and case does not matter. -/
def parse (given : Text) : Except Failure Format :=
  match String.ofList given.lower with
  | "dialect" | "xml" | "legacy" => .ok dialect
  | "html" => .ok html
  | "markdown" | "md" => .ok markdown
  | _ => .error (.unknownFormat given)

/-- A format is found under its own name. -/
@[simp]
theorem parse_name (format : Format) : parse format.name = .ok format := by
  cases format <;> rfl

/-- The format of a post stored without one: the Markdown flag decides first, then the prolog. -/
def detect (content : Text) (isMarkdown : Bool) : Format :=
  if isMarkdown then markdown
  else if (Text.after? legacyProlog content).isSome then dialect
  else html

/-- Converts content of a format. Only dialect documents can fail. -/
def convert : Format → Text → Converted
  | dialect, content => Dialect.convert content
  | html, content => { html := Html.typographStored content }
  | markdown, content => { html := Markdown.render content }

/-- A failed conversion that wrote nothing visible gives way to the escaped source. -/
def render (format : Format) (content : Text) : Converted :=
  let converted := format.convert content
  match converted.failure, converted.html.trim with
  | some _, [] => { converted with html := escapeText content }
  | _, _ => converted

end Format

end PostMarkup
