import LiveDiagram.Flowchart.Basic
import LiveDiagram.Layout.Measures
import LiveDiagram.Plane.Basic

namespace LiveDiagram.Layout

open Scalar

variable {α : Type} [Scalar α]

/-- The rectangle of the node with that index if nobody has moved it: on a grid
    in the order of declaration, or in one row when the flowchart grows
    sideways. -/
def nodeRect (index : Nat) (direction : Direction) : Rect α :=
  if direction.isHorizontal then
    ⟨ofNat index * nodeSpacingX, 0, nodeWidth, nodeHeight⟩
  else
    ⟨ofNat (index % nodesPerRow) * nodeSpacingX, ofNat (index / nodesPerRow) * nodeSpacingY,
      nodeWidth, nodeHeight⟩

/-- The multiple of the pitch nearest to the value. A pitch that is not positive
    changes nothing. -/
def snap (value pitch : α) : α :=
  if pitch ≤ 0 then value else round (value / pitch) * pitch

/-- The rectangle with its corner on the grid and the size that fits a text. -/
def normalized (r : Rect α) (text : Extent α) : Rect α :=
  ⟨snap r.x snapPitch, snap r.y snapPitch,
    greater fitMinWidth (ceil text.width + 2 * fitPadding),
    greater fitMinHeight (ceil text.height + 2 * fitPadding)⟩

/-- The left side of the participant with that index. -/
def participantLeft (index : Nat) (spacing : α) : α :=
  ofNat index * spacing

/-- The height at which the message with that index stands. -/
def messageY (index : Nat) : α :=
  messageTop + ofNat index * messageStep

/-- The height at which a note stands: below all messages, in the order of the
    notes. -/
def noteY (messages index : Nat) : α :=
  messageY messages + noteGap + ofNat index * noteStep

/-- The box of a note over participants whose centers lie between the two
    values. -/
def noteRect (least greatest y textHeight : α) : Rect α :=
  let width := greater noteMinWidth (greatest - least + notePadding)
  ⟨half (least + greatest) - half width, y, width, textHeight + noteTextMargin⟩

end LiveDiagram.Layout
