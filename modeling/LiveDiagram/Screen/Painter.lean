import LiveDiagram.Plane.Curve
import LiveDiagram.Screen.Dash
import LiveDiagram.Screen.DrawCall
import LiveDiagram.Screen.Font
import LiveDiagram.Screen.View
import LiveDiagram.Surface.Basic

namespace LiveDiagram

open Scalar Narrowing

variable {α β : Type} [Scalar α] [Scalar β] [Narrowing α β]

namespace View

/-- The corners of a rectangle on the screen. -/
def corners (v : View β) (r : Rect α) : Point β × Point β :=
  (v.toScreen ⟨r.x, r.y⟩, v.toScreen ⟨r.right, r.bottom⟩)

/-- How thick the outline of a paint is on the screen. -/
def thickness (v : View β) (p : Paint α) : β :=
  narrow p.strokeWidth * v.zoom

/-- The call for the ink of a text, if that is a colour. -/
def withInk (color : String) (call : Ink → DrawCall β) : List (DrawCall β) :=
  ((Ink.ofText? color).map call).toList

/-- Draws a rectangle. -/
def paintRect (v : View β) (r : Rect α) (rounding : β) (p : Paint α) : List (DrawCall β) :=
  let (least, greatest) := v.corners r
  withInk p.fill (fun ink => .filledRect least greatest ink rounding)
    ++ withInk p.stroke fun ink => .rect least greatest ink rounding (v.thickness p)

/-- Draws a circle. -/
def paintCircle (v : View β) (box : Rect α) (p : Paint α) : List (DrawCall β) :=
  let center := v.toScreen box.center
  let radius := half (narrow box.width) * v.zoom
  withInk p.fill (fun ink => .filledCircle center radius ink)
    ++ withInk p.stroke fun ink => .circle center radius ink (v.thickness p)

/-- Draws a polyline in dashes. -/
def paintDashes (v : View β) (points : List (Point α)) (ink : Ink) (p : Paint α) :
    List (DrawCall β) :=
  (dashes (points.map v.toScreen)).map fun (a, b) => .line a b ink (v.thickness p)

/-- Draws a line. -/
def paintLine (v : View β) (a b : Point α) (p : Paint α) : List (DrawCall β) :=
  match Ink.ofText? p.stroke with
  | none => []
  | some ink =>
    if p.dashed then v.paintDashes [a, b] ink p
    else [.line (v.toScreen a) (v.toScreen b) ink (v.thickness p)]

/-- How many segments stand for a curve on the screen. -/
def curveSegments : Nat := 32

/-- Draws a curve; a dashed one is drawn as a polyline. -/
def paintCubic (v : View β) (c : Cubic α) (p : Paint α) : List (DrawCall β) :=
  match Ink.ofText? p.stroke with
  | none => []
  | some ink =>
    if p.dashed then
      let points := (List.range (curveSegments + 1)).map fun i =>
        c.at (ofNat i / ofNat curveSegments)
      v.paintDashes points ink p
    else
      [.cubic (v.toScreen c.start) (v.toScreen c.control1) (v.toScreen c.control2)
        (v.toScreen c.finish) ink (v.thickness p) curveSegments]

/-- Draws a polygon, which has three corners at least. -/
def paintPolygon (v : View β) (points : List (Point α)) (p : Paint α) : List (DrawCall β) :=
  if points.length < 3 then
    []
  else
    let points := points.map v.toScreen
    withInk p.fill (fun ink => .filledPolygon points ink)
      ++ withInk p.stroke fun ink => .outline points ink (v.thickness p)

/-- Draws a text in the middle of its box. The filling of the box is slightly
    rounded. -/
def paintText (v : View β) (font : Font β) (box : Rect α) (content : String) (p : Paint α) :
    List (DrawCall β) :=
  if content.isEmpty then
    []
  else
    let (least, greatest) := v.corners box
    let size := font.extent content
    let corner : Point β :=
      ⟨least.x + half (greatest.x - least.x - size.width * v.zoom),
        least.y + half (greatest.y - least.y - size.height * v.zoom)⟩
    withInk p.fill (fun ink => .filledRect least greatest ink (2 * v.zoom))
      ++ [.text corner ((Ink.ofText? p.stroke).getD Ink.text) (font.size * v.zoom)
        (Text.untilNull content)]

/-- Draws a primitive, whether or not it is visible. Fillings and outlines are
    left out where the paint names no colour. -/
def paint (v : View β) (font : Font β) (p : Primitive α) : List (DrawCall β) :=
  match p.shape with
  | .rect r => v.paintRect r 0 p.paint
  | .roundedRect r radius => v.paintRect r (narrow radius * v.zoom) p.paint
  | .line (a :: b :: _) => v.paintLine a b p.paint
  | .line _ => []
  | .cubicPath (a :: b :: c :: d :: _) => v.paintCubic ⟨a, b, c, d⟩ p.paint
  | .cubicPath _ => []
  | .polygon points => v.paintPolygon points p.paint
  | .circle box => v.paintCircle box p.paint
  | .text box content => v.paintText font box content p.paint

/-- Draws the visible primitives of a surface from the lowest to the highest. -/
def paintSurface (v : View β) (font : Font β) (s : Surface α) : List (DrawCall β) :=
  (s.drawOrder.filter fun p => p.2.visible).flatMap fun p => v.paint font p.2

end View

end LiveDiagram
