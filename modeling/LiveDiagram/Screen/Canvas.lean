import LiveDiagram.Pointer.Basic
import LiveDiagram.Screen.Painter

namespace LiveDiagram

open Scalar Narrowing

/-- A rectangle of the screen: its upper left corner and its size. -/
structure Region (β : Type) where
  corner : Point β
  size : Extent β
  deriving DecidableEq, Repr, Inhabited

/-- Where a pan began: the pointer and the offset of the view at that time. -/
structure PanStart (β : Type) where
  mouse : Point β
  offset : Point β
  deriving DecidableEq, Repr, Inhabited

/-- The state of the canvas, the region of the screen where a surface is shown.
    It keeps the view, which the user zooms with the wheel and pans by dragging
    the background. -/
structure Canvas (β : Type) where
  view : View β
  /-- Whether the view has been placed, which the first frame does. -/
  placed : Bool := false
  /-- The region of the last frame. -/
  region : Region β
  pan : Option (PanStart β) := none
  /-- Whether a press was passed on that has not been released. -/
  pointerDown : Bool := false
  showGrid : Bool := true
  antialiasing : Bool := true
  deriving DecidableEq, Repr, Inhabited

/-- What the user does during one frame. -/
structure Gesture (β : Type) where
  /-- The upper left corner of the window. -/
  window : Point β
  mouse : Point β
  /-- How far the pointer moved since the last frame. -/
  delta : Point β
  wheel : β
  /-- Whether a key is down that adds to the selection. -/
  additive : Bool
  /-- Whether the window is the one under the pointer. -/
  windowHovered : Bool
  leftPressed : Bool
  rightPressed : Bool
  middlePressed : Bool
  leftReleased : Bool
  middleReleased : Bool
  deriving DecidableEq, Repr

namespace Canvas

variable {α β : Type} [Scalar β]

def minZoom : β := 1 / 10

def maxZoom : β := 10

/-- How much of the region bounds take up that are fitted into it. -/
def fitMargin : β := 9 / 10

/-- How far from the corner of the region the origin of the plane is placed at
    first. -/
def initialMargin : β := 40

/-- By how much one turn of the wheel magnifies. -/
def wheelFactor : β := 6 / 5

/-- A canvas before its first frame. -/
def start : Canvas β where
  view := ⟨Point.zero, 1⟩
  region := ⟨Point.zero, ⟨0, 0⟩⟩

/-- Magnifies by a factor, within the limits, so that the point of the plane
    under a point of the screen stays there. -/
def zoomAt (c : Canvas β) (p : Point β) (factor : β) : Canvas β :=
  let zoom := clamp (c.view.zoom * factor) minZoom maxZoom
  let factor := zoom / c.view.zoom
  let offset : Point β :=
    ⟨p.x - (p.x - c.view.offset.x) * factor, p.y - (p.y - c.view.offset.y) * factor⟩
  { c with view := { offset, zoom } }

/-- The middle of the last region. -/
def middle (c : Canvas β) : Point β :=
  ⟨c.region.corner.x + half c.region.size.width, c.region.corner.y + half c.region.size.height⟩

/-- Magnifies around the middle of the last region. -/
def zoomAtCenter (c : Canvas β) (factor : β) : Canvas β :=
  c.zoomAt c.middle factor

/-- Centers bounds in the last region and zooms out until they fit, but never in
    beyond natural size. Bounds or a region without area change nothing. -/
def fit [Scalar α] [Narrowing α β] (c : Canvas β) (bounds : Rect α) : Canvas β :=
  if bounds.width ≤ 0 ∨ bounds.height ≤ 0 then c
  else if c.region.size.width ≤ 0 ∨ c.region.size.height ≤ 0 then c
  else
    let fitting := lesser (c.region.size.width / narrow bounds.width)
      (c.region.size.height / narrow bounds.height)
    let zoom := clamp (fitting * fitMargin) minZoom 1
    let center := bounds.center
    let offset : Point β :=
      ⟨c.middle.x - narrow center.x * zoom, c.middle.y - narrow center.y * zoom⟩
    { c with view := { offset, zoom } }

/-- Starts to pan. -/
def startPan (c : Canvas β) (mouse : Point β) : Canvas β :=
  { c with pan := some ⟨mouse, c.view.offset⟩ }

/-- The view follows the pointer while it pans. -/
def followPan (c : Canvas β) (mouse : Point β) : Canvas β :=
  match c.pan with
  | none => c
  | some start =>
    let offset : Point β :=
      ⟨start.offset.x + (mouse.x - start.mouse.x), start.offset.y + (mouse.y - start.mouse.y)⟩
    { c with view := { c.view with offset } }

/-- Zooms by a turn of the wheel, up or down. -/
def turnWheel (c : Canvas β) (mouse : Point β) (wheel : β) : Canvas β :=
  if wheel == 0 then c
  else c.zoomAt mouse (if 0 < wheel then wheelFactor else 1 / wheelFactor)

/-- Takes note of the region of a frame, and places the view in the first
    one. -/
def enter (c : Canvas β) (region : Region β) : Canvas β :=
  let c := { c with region }
  if c.placed then
    c
  else
    let offset : Point β := ⟨region.corner.x + initialMargin, region.corner.y + initialMargin⟩
    { c with view := { c.view with offset }, placed := true }

/-- Whether the pointer is over the canvas, which starts at the corner of the
    window. -/
def isHovered (c : Canvas β) (g : Gesture β) : Bool :=
  let inRegion : Bool :=
    g.window.x ≤ g.mouse.x && g.mouse.x ≤ g.window.x + c.region.size.width
      && g.window.y ≤ g.mouse.y && g.mouse.y ≤ g.window.y + c.region.size.height
  inRegion && g.windowHovered

end Canvas

/-- A canvas with the desk on whose picture its gestures act. The canvas passes
    presses, moves and releases on to the desk, in coordinates of the plane. -/
structure Workplace (α β : Type) where
  desk : Desk α
  canvas : Canvas β

namespace Workplace

variable {α β : Type} [Scalar α] [Scalar β] [Narrowing α β]

/-- Does something to the desk and leaves the canvas as it is. -/
def onDesk (w : Workplace α β) (f : Desk α → Outcome (Desk α)) : Outcome (Workplace α β) :=
  (f w.desk).map fun desk => { w with desk }

/-- Does something to the canvas. -/
def onCanvas (w : Workplace α β) (f : Canvas β → Canvas β) : Workplace α β :=
  { w with canvas := f w.canvas }

/-- A press of the left button: the desk gets it, and if it takes hold of
    nothing, a pan begins. With no desk to get it, a pan begins too. -/
def pressLeft (w : Workplace α β) (interactive : Bool) (p : Point α) (g : Gesture β) :
    Outcome (Workplace α β) :=
  if interactive then
    (w.onDesk fun d => d.press p .left g.additive).andThen fun w =>
      let w := w.onCanvas ({ · with pointerDown := true })
      .done (if w.desk.pointer.active = .nothing then w.onCanvas (·.startPan g.mouse) else w)
  else
    .done (w.onCanvas (·.startPan g.mouse))

/-- A release of the left button ends a drag and a pan. -/
def releaseLeft (w : Workplace α β) (interactive : Bool) (p : Point α) : Outcome (Workplace α β) :=
  (if w.canvas.pointerDown && interactive then w.onDesk fun d => d.release p .left
    else .done w).andThen fun w =>
      .done (w.onCanvas ({ · with pointerDown := false, pan := none }))

/-- Acts on the gesture of a frame. The flag says whether the desk gets what
    happens on the canvas. -/
def handle (w : Workplace α β) (interactive : Bool) (g : Gesture β) : Outcome (Workplace α β) :=
  let hovered := w.canvas.isHovered g
  let p : Point α := w.canvas.view.toPlane g.mouse
  let whenever (condition : Bool) (f : Workplace α β → Outcome (Workplace α β))
      (w : Workplace α β) : Outcome (Workplace α β) :=
    if condition then f w else .done w
  let moved := !(g.delta.x == 0) || !(g.delta.y == 0)
  let drag (w : Workplace α β) : Outcome (Workplace α β) :=
    if w.canvas.pointerDown && interactive && w.desk.isDragging && moved then
      w.onDesk fun d => d.move p
    else
      .done w
  (whenever (g.leftPressed && hovered) (·.pressLeft interactive p g) w)
    |>.andThen (whenever (g.rightPressed && hovered && interactive)
      (·.onDesk fun d => d.press p .right false))
    |>.andThen (whenever (g.middlePressed && hovered) fun w =>
      .done (w.onCanvas (·.startPan g.mouse)))
    |>.andThen drag
    |>.andThen (whenever g.leftReleased (·.releaseLeft interactive p))
    |>.andThen (whenever g.middleReleased fun w => .done (w.onCanvas ({ · with pan := none })))
    |>.andThen fun w =>
      let w := w.onCanvas (·.followPan g.mouse)
      .done (if hovered then w.onCanvas (·.turnWheel g.mouse g.wheel) else w)

end Workplace

end LiveDiagram
