import PostMarkup.Html.Writing

namespace PostMarkup.Html

/-- What the reader hands over to the writer. -/
inductive Delivery
  | token (token : Token)
  | endOfInput
deriving DecidableEq

structure StartTag where
  name : Text
  attributes : List Attribute
  selfClosing : Bool
deriving DecidableEq

/-- A style, and what becomes of each start tag before anything else looks at it. The style alone
    changes attributes; a writer may change all of the tag. -/
structure Writer (σ : Type) extends Style σ where
  amend : StartTag → StartTag :=
    fun tag => { tag with attributes := adjust tag.name tag.attributes }

/-- The writer that changes no more than its style does. -/
def Style.writer {σ : Type} (style : Style σ) : Writer σ := { style with }

/-- How far a writer has come between two deliveries. -/
structure Progress (σ : Type) where
  place : Place σ
  /-- The text of the node that nothing has ended yet. -/
  held : Text := []
  written : Text := []

def Progress.add {σ : Type} (progress : Progress σ) (piece : Piece) : Progress σ :=
  { progress with written := progress.written ++ piece.write }

namespace Writer

variable {σ : Type} (writer : Writer σ)

def initial : Progress σ := { place := writer.start }

/-- Held text is written in its final form, for the place that it stands in. -/
def flush (progress : Progress σ) : Progress σ :=
  match progress.held with
  | [] => progress
  | held =>
    { progress with
      held := []
      written := progress.written ++ writer.writeText progress.place held }

/-- The progress after a delivery, and the content model that the reader has to change to. -/
def receive (progress : Progress σ) : Delivery → Progress σ × Option ContentModel
  | .token (.text s) => ({ progress with held := progress.held ++ s }, none)
  | .token .null => (progress, none)
  | .token .parseError => (progress, none)
  | .token (.startTag name attributes selfClosing) =>
    let tag := writer.amend ⟨name, attributes, selfClosing⟩
    -- The text before a tag still belongs to the place before it.
    let tagged := (writer.flush progress).add (.startTag tag.name tag.attributes tag.selfClosing)
    if tag.selfClosing then (tagged, none)
    else
      ({ tagged with place := writer.afterStart tagged.place tag.name false },
        contentModel? tag.name)
  | .token (.endTag name _ _) =>
    let tagged := (writer.flush progress).add (.endTag name)
    ({ tagged with place := writer.afterEnd tagged.place name }, none)
  | .token (.comment content) =>
    let flushed := writer.flush progress
    (if writer.keepComments then flushed.add (.comment content) else flushed, none)
  | .token .documentType => (writer.flush progress, none)
  | .endOfInput => (writer.flush progress, none)

/-- The progress after a stream of deliveries, and the answer to each. -/
def run (progress : Progress σ) : List Delivery → Progress σ × List (Option ContentModel)
  | [] => (progress, [])
  | delivery :: stream =>
    let (next, answer) := writer.receive progress delivery
    let (last, answers) := run next stream
    (last, answer :: answers)

/-- All that is written of a stream. What is still held at its end is written then. -/
def output (stream : List Delivery) : Text :=
  (writer.flush (writer.run writer.initial stream).1).written

/-- Each delivery with its answer. -/
def answered (stream : List Delivery) : List (Delivery × Option ContentModel) :=
  stream.zip (writer.run writer.initial stream).2

end Writer

end PostMarkup.Html
