import LiveDiagram.Number.Double
import LiveDiagram.Plane.Basic

namespace LiveDiagram

/-- How the plane is mapped to the screen: it is magnified and then shifted.
    Screen coordinates have their own scalars, to which coordinates of the plane
    are narrowed first. -/
structure View (β : Type) where
  offset : Point β
  zoom : β
  deriving DecidableEq, Repr, Inhabited

namespace View

variable {α β : Type} [Scalar β] [Narrowing α β]

/-- Where a point of the plane is on the screen. -/
def toScreen (v : View β) (p : Point α) : Point β :=
  ⟨Narrowing.narrow p.x * v.zoom + v.offset.x, Narrowing.narrow p.y * v.zoom + v.offset.y⟩

/-- The point of the plane at a place on the screen. -/
def toPlane (v : View β) (p : Point β) : Point α :=
  ⟨Narrowing.widen ((p.x - v.offset.x) / v.zoom), Narrowing.widen ((p.y - v.offset.y) / v.zoom)⟩

end View

end LiveDiagram
