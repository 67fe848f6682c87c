import LiveDiagram.Plane.Curve

namespace LiveDiagram

open Scalar

variable {α : Type}

/-- What is recorded about the course of an edge. Ends are offsets from the
    centers of their nodes, control points are points of the plane. -/
structure EdgeShape (α : Type) where
  curved : Bool := false
  startOffset : Option (Point α) := none
  endOffset : Option (Point α) := none
  control1 : Option (Point α) := none
  control2 : Option (Point α) := none
  deriving DecidableEq, Repr, Inhabited

/-- The course of an edge over the plane, straight or a curve with two control
    points. Everything that is drawn of an edge follows from its route. -/
structure Route (α : Type) where
  start : Point α
  finish : Point α
  /-- The control points of a curve; a straight edge has none. -/
  controls : Option (Point α × Point α)
  labelAnchor : Point α
  /-- The direction of the arrow head at the end, in degrees. -/
  endAngle : α
  /-- The direction of the arrow head at the start. -/
  startAngle : α
  /-- Where the control points can be dragged; on a straight edge they stand at
      its thirds. -/
  handle1 : Point α
  handle2 : Point α
  deriving DecidableEq, Repr, Inhabited

variable [Scalar α]

/-- Where the ray from the center of the rectangle towards a point crosses the
    border. The greater of the two distances from the center decides whether
    that is on the left or right or on the top or bottom side, and the crossing
    is kept on that side. A point that is too near to the center gives the
    center. -/
def Rect.borderPoint (r : Rect α) (target : Point α) : Point α :=
  let c := r.center
  let dx := target.x - c.x
  let dy := target.y - c.y
  if abs dx < Layout.centerTolerance ∧ abs dy < Layout.centerTolerance then
    c
  else
    let halfWidth := half r.width
    let halfHeight := half r.height
    if abs dy < abs dx then
      ⟨if 0 < dx then r.right else r.left,
        c.y + clamp (halfWidth * dy / abs dx) (-halfHeight) halfHeight⟩
    else
      ⟨c.x + clamp (halfHeight * dx / abs dy) (-halfWidth) halfWidth,
        if 0 < dy then r.bottom else r.top⟩

namespace EdgeShape

/-- Where the edge leaves its source. -/
def start (e : EdgeShape α) (source target : Rect α) : Point α :=
  match e.startOffset with
  | some offset => source.center + offset
  | none => source.borderPoint target.center

/-- Where the edge reaches its target. -/
def finish (e : EdgeShape α) (source target : Rect α) : Point α :=
  match e.endOffset with
  | some offset => target.center + offset
  | none => target.borderPoint source.center

/-- The control points, if the edge is a curve and has both. -/
def curveControls (e : EdgeShape α) : Option (Point α × Point α) :=
  if e.curved then
    match e.control1, e.control2 with
    | some c1, some c2 => some (c1, c2)
    | _, _ => none
  else
    none

/-- Whether the edge is a curve that lacks a control point. -/
def lacksControls (e : EdgeShape α) : Bool :=
  e.curved && (e.control1.isNone || e.control2.isNone)

/-- The shape with the control points it lacks where a new curve has them. -/
def withControls (e : EdgeShape α) (source target : Rect α) : EdgeShape α :=
  let (c1, c2) := initialControls (e.start source target) (e.finish source target)
  { e with control1 := some (e.control1.getD c1), control2 := some (e.control2.getD c2) }

/-- The route of an edge between two rectangles. It leaves the source where the
    straight line to the center of the target crosses the border, and reaches
    the target in the same way, unless an end was dragged elsewhere. -/
def route (e : EdgeShape α) (source target : Rect α) : Route α :=
  let start := e.start source target
  let finish := e.finish source target
  let handle1 := e.control1.getD ((start.scale 2 + finish).scale (1 / 3))
  let handle2 := e.control2.getD ((start + finish.scale 2).scale (1 / 3))
  match e.curveControls with
  | some (c1, c2) =>
    { start, finish, controls := some (c1, c2), handle1, handle2
      labelAnchor := Cubic.at ⟨start, c1, c2, finish⟩ (half 1)
      endAngle := c2.degreesTo finish
      startAngle := start.degreesTo c1 + 180 }
  | none =>
    { start, finish, controls := none, handle1, handle2
      labelAnchor := (start + finish).scale (half 1)
      endAngle := start.degreesTo finish
      startAngle := start.degreesTo finish + 180 }

end EdgeShape

/-- The distance of a point from the route. -/
def Route.distanceFrom (r : Route α) (p : Point α) : α :=
  match r.controls with
  | some (c1, c2) => p.distanceToCubic ⟨r.start, c1, c2, r.finish⟩
  | none => p.distanceToSegment r.start r.finish

end LiveDiagram
