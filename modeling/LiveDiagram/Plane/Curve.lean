import LiveDiagram.Layout.Measures
import LiveDiagram.Plane.Basic

namespace LiveDiagram

open Scalar

variable {α : Type}

/-- A cubic curve from `start` to `finish` with its two control points. -/
structure Cubic (α : Type) where
  start : Point α
  control1 : Point α
  control2 : Point α
  finish : Point α
  deriving DecidableEq, Repr, Inhabited

variable [Scalar α]

/-- The point of the curve at a parameter between zero and one. -/
def Cubic.at (c : Cubic α) (t : α) : Point α :=
  let u := 1 - t
  let b0 := u * u * u
  let b1 := 3 * u * u * t
  let b2 := 3 * u * t * t
  let b3 := t * t * t
  ⟨b0 * c.start.x + b1 * c.control1.x + b2 * c.control2.x + b3 * c.finish.x,
    b0 * c.start.y + b1 * c.control1.y + b2 * c.control2.y + b3 * c.finish.y⟩

namespace Point

/-- The distance of a point from the segment between two others. -/
def distanceToSegment (p a b : Point α) : α :=
  let v := b - a
  let square := v.x * v.x + v.y * v.y
  let t := if 0 < square then clamp (((p.x - a.x) * v.x + (p.y - a.y) * v.y) / square) 0 1 else 0
  hypot (p.x - (a.x + t * v.x)) (p.y - (a.y + t * v.y))

/-- How many segments stand for a curve when distances to it are measured. -/
def curveSegments : Nat := 32

/-- The distance of a point from a curve, by way of the segments that stand for
    the curve. -/
def distanceToCubic (p : Point α) (c : Cubic α) : α :=
  ((List.range curveSegments).foldl
    (fun (best, previous) i =>
      let next := c.at (ofNat (i + 1) / ofNat curveSegments)
      (lesser best (p.distanceToSegment previous next), next))
    (p.distance c.start, c.start)).1

/-- The direction from one point to another, in degrees. -/
def degreesTo (p q : Point α) : α :=
  atan2 (q.y - p.y) (q.x - p.x) * 180 / pi

end Point

/-- The control points that a new curve from `start` to `finish` has: both stand
    off the edge to the same side, each near its own end. -/
def initialControls (start finish : Point α) : Point α × Point α :=
  let v := finish - start
  let distance := hypot v.x v.y
  let length := if distance == 0 then 1 else distance
  let ux := v.x / length
  let uy := v.y / length
  let nx := -uy
  let ny := ux
  let along := greater Layout.curveMinAlong (length * Layout.curveAlongRatio)
  let across : α := Layout.curveAcross
  (⟨start.x + ux * along + nx * across, start.y + uy * along + ny * across⟩,
    ⟨finish.x - ux * along + nx * across, finish.y - uy * along + ny * across⟩)

/-- The corners of an arrow head with its tip at a point, in a direction given
    in degrees. -/
def arrowHead (tip : Point α) (degrees : α) : List (Point α) :=
  let angle := degrees * pi / 180
  let c := cos angle
  let s := sin angle
  let place (x y : α) : Point α := ⟨tip.x + x * c - y * s, tip.y + x * s + y * c⟩
  [tip, place (-Layout.arrowLength) (-Layout.arrowHalfWidth),
    place (-Layout.arrowLength) Layout.arrowHalfWidth]

end LiveDiagram
