import LiveDiagram.Plane.Basic

namespace LiveDiagram

open Scalar

variable {α : Type}

/-- The shapes that can be drawn. A line takes two points and a path four; with
    fewer nothing is drawn, and more are ignored. -/
inductive Shape (α : Type) where
  | rect (r : Rect α)
  | roundedRect (r : Rect α) (radius : α)
  | line (points : List (Point α))
  | cubicPath (points : List (Point α))
  | polygon (points : List (Point α))
  /-- The circle around the center of a box, as wide as the box. -/
  | circle (box : Rect α)
  /-- A text in the middle of a box. -/
  | text (box : Rect α) (content : String)
  deriving DecidableEq, Repr, Inhabited

/-- How a shape is filled and outlined. A text that is no colour stands for
    none. -/
structure Paint (α : Type) where
  fill : String := ""
  stroke : String := ""
  strokeWidth : α
  dashed : Bool := false
  deriving DecidableEq, Repr, Inhabited

/-- A shape with a paint, at a height above the plane, which may be hidden.
    Those with a greater `z` cover those with a lesser one. -/
structure Primitive (α : Type) where
  shape : Shape α
  paint : Paint α
  z : Int
  visible : Bool := true
  deriving DecidableEq, Repr, Inhabited

variable [Scalar α]

/-- A paint with an outline of width one. -/
def Paint.plain (fill stroke : String) : Paint α :=
  { fill, stroke, strokeWidth := 1 }

/-- The least rectangle around some points. -/
def boundsOf : List (Point α) → Rect α
  | [] => Rect.zero
  | p :: points =>
    let xs := (p :: points).map Point.x
    let ys := (p :: points).map Point.y
    let left := xs.foldl lesser p.x
    let right := xs.foldl greater p.x
    let top := ys.foldl lesser p.y
    let bottom := ys.foldl greater p.y
    ⟨left, top, right - left, bottom - top⟩

/-- The rectangle that a shape takes up. -/
def Shape.bounds : Shape α → Rect α
  | rect r => r
  | roundedRect r _ => r
  | circle box => box
  | text box _ => box
  | line points => boundsOf points
  | cubicPath points => boundsOf points
  | polygon points => boundsOf points

end LiveDiagram
