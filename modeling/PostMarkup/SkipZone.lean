import PostMarkup.Text.Basic

namespace PostMarkup

/-- Names of the elements that open a skip zone. -/
abbrev SkipSet := List Text

/-- Code and links of the dialect, under their source names and their output names. -/
def SkipSet.dialect : SkipSet :=
  ["pre".toList, "a".toList, "script".toList, "code".toList, "example".toList, "link".toList]

/-- Code, links and raw text of HTML. -/
def SkipSet.html : SkipSet :=
  ["pre".toList, "a".toList, "script".toList, "code".toList, "style".toList]

/-- A stretch of markup whose text is escaped and never typographed. At most one element holds the
    zone, so zones do not stack. -/
structure SkipZone where
  holder : Option Text := none
deriving DecidableEq

namespace SkipZone

def isActive (zone : SkipZone) : Bool := zone.holder.isSome

/-- An element opens the zone if nothing holds it yet. The flag says whether it did. -/
def enter (zone : SkipZone) (name : Text) : Bool × SkipZone :=
  match zone.holder with
  | none => (true, ⟨some name⟩)
  | some _ => (false, zone)

/-- Only an end tag with the holder's name closes the zone. The flag says whether it did. -/
def exit (zone : SkipZone) (name : Text) : Bool × SkipZone :=
  if zone.holder = some name then (true, ⟨none⟩) else (false, zone)

end SkipZone

end PostMarkup
