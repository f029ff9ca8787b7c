import PostMarkup.Dialect.Markup

namespace PostMarkup.Dialect

/-- The events before the first fault, and the fault with the text from its place on. -/
structure Reading where
  events : List Event
  failure : Option (Fault × Text) := none

/-- The open elements after an event, innermost first. -/
def openAfter (opens : List Text) : Event → Except Fault (List Text)
  | .startTag name _ => .ok (name :: opens)
  | .endTag name =>
    match opens with
    | [] => .error (.strayEndTag name)
    | expected :: outer =>
      if name = expected then .ok outer else .error (.mismatchedEndTag expected name)
  | _ => .ok opens

/-- Reads on inside the given open elements. -/
def readFrom (opens : List Text) (s : Text) : Reading :=
  match _hnext : nextEvent s with
  | .finished => ⟨[], none⟩
  | .failed fault remaining => ⟨[], some (fault, remaining)⟩
  | .event event rest =>
    match openAfter opens event with
    | .error fault => ⟨[], some (fault, s)⟩
    | .ok opens =>
      let later := readFrom opens rest
      { later with events := event :: later.events }
termination_by s.length
decreasing_by exact length_lt_of_nextEvent _hnext

/-- Reads a document from its beginning. -/
def read (s : Text) : Reading := readFrom [] s

end PostMarkup.Dialect
