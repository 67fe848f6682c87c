import LiveDiagram.Plane.Basic
import LiveDiagram.Style.Color

namespace LiveDiagram

/-- A colour of the screen, with its opacity; all four channels are below
    256. -/
structure Ink where
  red : Nat
  green : Nat
  blue : Nat
  alpha : Nat
  deriving DecidableEq, Repr, Inhabited

namespace Ink

/-- The opaque ink of a colour. -/
def ofColor (c : Color) : Ink :=
  ⟨c.red, c.green, c.blue, 255⟩

/-- The ink of the colour that a text denotes. -/
def ofText? (s : String) : Option Ink :=
  (Color.ofText? s).map ofColor

/-- The ink that leaves no trace. -/
def clear : Ink := ⟨0, 0, 0, 0⟩

def white : Ink := ⟨255, 255, 255, 255⟩

/-- The ink of texts whose paint names no colour. -/
def text : Ink := ⟨44, 62, 80, 255⟩

/-- The ink of the grid. -/
def grid : Ink := ⟨225, 228, 235, 255⟩

end Ink

/-- A call that draws one shape, filled or outlined, in screen coordinates. -/
inductive DrawCall (β : Type) where
  | line (p q : Point β) (ink : Ink) (thickness : β)
  | rect (least greatest : Point β) (ink : Ink) (rounding thickness : β)
  | filledRect (least greatest : Point β) (ink : Ink) (rounding : β)
  | circle (center : Point β) (radius : β) (ink : Ink) (thickness : β)
  | filledCircle (center : Point β) (radius : β) (ink : Ink)
  | cubic (p1 p2 p3 p4 : Point β) (ink : Ink) (thickness : β) (segments : Nat)
  | filledPolygon (points : List (Point β)) (ink : Ink)
  /-- The closed outline of a polygon. -/
  | outline (points : List (Point β)) (ink : Ink) (thickness : β)
  | text (corner : Point β) (ink : Ink) (size : β) (content : String)
  deriving DecidableEq, Repr

end LiveDiagram
