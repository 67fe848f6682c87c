import LiveDiagram.Plane.Basic

namespace LiveDiagram

open Scalar

/-- One of the eight handles on the border of a rectangle, named for the
    direction from the center. -/
inductive Handle where
  | nw
  | n
  | ne
  | e
  | se
  | s
  | sw
  | w
  deriving DecidableEq, Repr, Inhabited

namespace Handle

/-- The handles in the order in which they are drawn and tested. -/
def all : List Handle :=
  [nw, n, ne, e, se, s, sw, w]

def name : Handle → String
  | nw => "nw"
  | n => "n"
  | ne => "ne"
  | e => "e"
  | se => "se"
  | s => "s"
  | sw => "sw"
  | w => "w"

/-- The handle of that name. -/
def ofName? (s : String) : Option Handle :=
  all.find? fun h => h.name == s

/-- Whether the handle moves the right side. -/
def isEast : Handle → Bool
  | ne | e | se => true
  | _ => false

/-- Whether the handle moves the left side. -/
def isWest : Handle → Bool
  | nw | w | sw => true
  | _ => false

/-- Whether the handle moves the bottom side. -/
def isSouth : Handle → Bool
  | se | s | sw => true
  | _ => false

/-- Whether the handle moves the top side. -/
def isNorth : Handle → Bool
  | nw | n | ne => true
  | _ => false

end Handle

namespace Rect

variable {α : Type} [Scalar α]

/-- Where the handle sits: on a corner or in the middle of a side. -/
def handlePoint (r : Rect α) : Handle → Point α
  | .nw => ⟨r.left, r.top⟩
  | .n => ⟨r.center.x, r.top⟩
  | .ne => ⟨r.right, r.top⟩
  | .e => ⟨r.right, r.center.y⟩
  | .se => ⟨r.right, r.bottom⟩
  | .s => ⟨r.center.x, r.bottom⟩
  | .sw => ⟨r.left, r.bottom⟩
  | .w => ⟨r.left, r.center.y⟩

/-- One axis of a resize step, as the new start and the new length. Moving the
    far end keeps at least the least length. Moving the near end leaves
    everything as it is when too little would be left. -/
def resizeAxis (far near : Bool) (start length step least : α) : α × α :=
  if far then
    (start, greater least (length + step))
  else if near ∧ least ≤ length - step then
    (start + step, length - step)
  else
    (start, length)

/-- The rectangle after its handle was moved by an offset, where no side gets
    shorter than `least`. A handle on the right or at the bottom moves only its
    own side; one on the left or at the top moves the corner too, so that the
    opposite side stays where it is. -/
def resize (r : Rect α) (h : Handle) (step : Point α) (least : α) : Rect α :=
  let (x, width) := resizeAxis h.isEast h.isWest r.x r.width step.x least
  let (y, height) := resizeAxis h.isSouth h.isNorth r.y r.height step.y least
  ⟨x, y, width, height⟩

end Rect

end LiveDiagram
