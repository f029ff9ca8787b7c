import PostMarkup.Text.Basic

namespace PostMarkup

structure Attribute where
  key : Text
  value : Text
deriving DecidableEq

namespace Attribute

/-- The first attribute with the key has its value changed; without one, an attribute with the
    default value comes last. -/
def upsert (key : Text) (change : Text → Text) (default : Text) : List Attribute → List Attribute
  | [] => [⟨key, default⟩]
  | entry :: rest =>
    if entry.key = key then ⟨key, change entry.value⟩ :: rest
    else entry :: upsert key change default rest

/-- The first attribute with the key gets the value, or a new one at the end does. -/
def set (key value : Text) (attributes : List Attribute) : List Attribute :=
  upsert key (fun _ => value) value attributes

/-- An attribute as it stands in a start tag, a space before it. The value is written as it is. -/
def write (entry : Attribute) : Text :=
  ' ' :: entry.key ++ "=\"".toList ++ entry.value ++ ['"']

end Attribute

/-- The class that gives tables their look. -/
def tableClass : Text := "table table-condensed table-striped".toList

end PostMarkup
