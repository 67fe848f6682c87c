import LiveDiagram.Screen.Canvas

namespace LiveDiagram

open Scalar Narrowing

namespace Grid

variable {α : Type} [Scalar α]

/-- The distance between the lines of the grid, on the plane. -/
def step : α := 40

/-- The least distance between the lines of the grid on the screen. -/
def leastPitch : α := 8

/-- The values from `x` on, a step apart, that are not greater than the limit.
    The bound is on their number. -/
def ticksFrom : (bound : Nat) → (x limit : α) → List α
  | 0, _, _ => []
  | bound + 1, x, limit => if x ≤ limit then x :: ticksFrom bound (x + step) limit else []

/-- Where the lines of the grid cross an axis between two values, up to one line
    beyond the greater. -/
def ticks (least greatest : α) : List α :=
  let first := floor (least / step) * step
  let limit := greatest + step
  ticksFrom (bound ((limit - first) / step) + 2) first limit

variable {β : Type} [Scalar β] [Narrowing α β]

/-- Draws the grid between two points of the plane. -/
def lines (v : View β) (least greatest : Point α) : List (DrawCall β) :=
  let line (p q : Point α) : DrawCall β := .line (v.toScreen p) (v.toScreen q) Ink.grid 1
  (ticks least.x greatest.x).map (fun x => line ⟨x, least.y⟩ ⟨x, greatest.y⟩)
    ++ (ticks least.y greatest.y).map fun y => line ⟨least.x, y⟩ ⟨greatest.x, y⟩

end Grid

/-- The two switches of a draw list for smooth lines and smooth fillings, as
    bits of its flags. -/
def smoothFlags : Nat := 1 + 4

namespace Canvas

variable {α β : Type} [Scalar α] [Scalar β] [Narrowing α β]

/-- The flags of the draw list with both switches set as the canvas wants
    them. -/
def listFlags (c : Canvas β) (flags : Nat) : Nat :=
  if c.antialiasing then flags ||| smoothFlags else (flags ||| smoothFlags) ^^^ smoothFlags

/-- The corners of the region. -/
def corners (c : Canvas β) : Point β × Point β :=
  let p := c.region.corner
  (p, ⟨p.x + c.region.size.width, p.y + c.region.size.height⟩)

/-- Draws the grid over the region, unless its lines would be too close to each
    other. -/
def gridLines (α : Type) [Scalar α] [Narrowing α β] (c : Canvas β) : List (DrawCall β) :=
  if Grid.step * c.view.zoom < Grid.leastPitch then
    []
  else
    let least : Point α := c.view.toPlane c.corners.1
    let greatest : Point α := c.view.toPlane c.corners.2
    Grid.lines c.view least greatest

/-- Draws the background, the grid if it is shown, and a surface if there is
    one. -/
def paint (c : Canvas β) (font : Font β) (surface : Option (Surface α)) : List (DrawCall β) :=
  .filledRect c.corners.1 c.corners.2 Ink.white 0 :: (if c.showGrid then c.gridLines α else [])
    ++ (surface.map fun s => c.view.paintSurface font s).getD []

end Canvas

/-- Whether a region has an area. -/
def Region.hasArea {β : Type} [Scalar β] (r : Region β) : Bool :=
  !(r.size.width ≤ 0 || r.size.height ≤ 0)

/-- Acts on the gesture of a frame in a region, and draws the background, the
    grid and the surface. If the gesture is refused, nothing is drawn. A region
    without area has no frame. -/
def Workplace.frame {α β : Type} [Scalar α] [Scalar β] [Narrowing α β] (w : Workplace α β)
    (interactive : Bool) (region : Region β) (g : Gesture β) : Outcome (Workplace α β) :=
  if region.hasArea then (w.onCanvas (·.enter region)).handle interactive g else .done w

end LiveDiagram
