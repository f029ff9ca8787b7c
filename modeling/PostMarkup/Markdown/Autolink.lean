import PostMarkup.Text.Basic

namespace PostMarkup.Markdown

/-- What an autolink leads to. -/
inductive Address
  | web (text : Text)
  | mail (text : Text)

namespace Address

/-- An absolute address: a scheme of 2 to 32 characters, a colon, no blanks or angle brackets. -/
def web? (s : Text) : Option (Address × Text) :=
  let scheme := s.takeWhile fun c => c.isAlphanum || c = '.' || c = '-' || c = '+'
  match s.drop scheme.length with
  | ':' :: s =>
    let path := s.takeWhile fun c => ' ' < c && c ≠ '<' && c ≠ '>'
    match s.drop path.length with
    | '>' :: rest =>
      if scheme.head?.any Char.isAlpha && 2 ≤ scheme.length && scheme.length ≤ 32 then
        some (web (scheme ++ ':' :: path), rest)
      else none
    | _ => none
  | _ => none

/-- A character of the part of a mail address before the at sign. -/
def isMailboxCharacter (c : Char) : Bool :=
  c.isAlphanum || ".!#$%&'*+/=?^_\x60\x7b|\x7d~-".toList.contains c

/-- A part of a domain: letters and digits, and hyphens inside. -/
def isDomainLabel (s : Text) : Bool :=
  !s.isEmpty && s.length ≤ 63 && s.head? ≠ some '-' && s.getLast? ≠ some '-'

/-- The parts of a domain, split at its dots. -/
def domainLabels : Text → List Text
  | [] => [[]]
  | c :: s =>
    if c = '.' then [] :: domainLabels s
    else
      match domainLabels s with
      | label :: labels => (c :: label) :: labels
      | [] => [[c]]

/-- A mail address. -/
def mail? (s : Text) : Option (Address × Text) :=
  let mailbox := s.takeWhile isMailboxCharacter
  match s.drop mailbox.length with
  | '@' :: s =>
    let domain := s.takeWhile fun c => c.isAlphanum || c = '-' || c = '.'
    match s.drop domain.length with
    | '>' :: rest =>
      if !mailbox.isEmpty && (domainLabels domain).all isDomainLabel then
        some (mail (mailbox ++ '@' :: domain), rest)
      else none
    | _ => none
  | _ => none

/-- An address of either kind. -/
def read? (s : Text) : Option (Address × Text) := web? s <|> mail? s

end Address

end PostMarkup.Markdown
