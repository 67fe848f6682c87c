import LiveDiagram.Plane.Basic

namespace LiveDiagram

open Scalar

variable {β : Type} [Scalar β]

/-- The pen on its way along a line. -/
structure Pen (β : Type) where
  isDown : Bool
  /-- How far it is until the pen changes. -/
  remaining : β
  deriving DecidableEq, Repr, Inhabited

namespace Pen

def dashLength : β := 6

def gapLength : β := 4

/-- The pen at the start of a dash or of a gap. -/
def fresh (isDown : Bool) : Pen β where
  isDown
  remaining := if isDown then dashLength else gapLength

/-- The pen after a step, which does not go beyond what remains. -/
def advance (pen : Pen β) (step : β) : Pen β :=
  let remaining := pen.remaining - step
  if remaining ≤ 0 then fresh (!pen.isDown) else { pen with remaining }

/-- Moves the pen from `p` to the end `q` of a segment, `length` away, and
    returns what it inks. Each step ends where the pen changes or where the
    segment ends, and so all but the last make the rest of the segment shorter
    by a dash or a gap; the bound is on the number of steps. -/
def walkSegment : (bound : Nat) → Pen β → (p q : Point β) → (length : β) →
    Pen β × List (Point β × Point β)
  | 0, pen, _, _, _ => (pen, [])
  | bound + 1, pen, p, q, length =>
    if 0 < length then
      let step := if length < pen.remaining then length else pen.remaining
      let t := step / length
      let next : Point β := ⟨p.x + (q.x - p.x) * t, p.y + (q.y - p.y) * t⟩
      let (last, inked) := walkSegment bound (pen.advance step) next q (length - step)
      (last, if pen.isDown then (p, next) :: inked else inked)
    else
      (pen, [])

/-- Moves the pen along a polyline and returns what it inks. -/
def walk (pen : Pen β) : List (Point β) → List (Point β × Point β)
  | p :: q :: points =>
    let length := hypot (q.x - p.x) (q.y - p.y)
    let (pen, inked) := pen.walkSegment (bound length + 3) p q length
    inked ++ pen.walk (q :: points)
  | _ => []

end Pen

/-- The dashes along a polyline. A pen goes down for the length of a dash and up
    for the length of a gap, in turn, from the first point to the last; the
    pattern runs on through the corners. -/
def dashes (points : List (Point β)) : List (Point β × Point β) :=
  (Pen.fresh true).walk points

end LiveDiagram
