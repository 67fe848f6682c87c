import LiveDiagram.Number.Scalar

namespace LiveDiagram

open Scalar

variable {α : Type}

/-- A point of the plane, on which x grows to the right and y downwards, or the
    offset between two points. -/
structure Point (α : Type) where
  x : α
  y : α
  deriving DecidableEq, Repr, Inhabited

/-- A rectangle with sides along the axes, given by its upper left corner and
    its size. -/
structure Rect (α : Type) where
  x : α
  y : α
  width : α
  height : α
  deriving DecidableEq, Repr, Inhabited

/-- The width and height of a text or a region. -/
structure Extent (α : Type) where
  width : α
  height : α
  deriving DecidableEq, Repr, Inhabited

namespace Point

variable [Scalar α]

instance : Add (Point α) := ⟨fun p q => ⟨p.x + q.x, p.y + q.y⟩⟩
instance : Sub (Point α) := ⟨fun p q => ⟨p.x - q.x, p.y - q.y⟩⟩

/-- The origin. -/
def zero : Point α := ⟨0, 0⟩

/-- The point with both coordinates multiplied by a scalar. -/
def scale (p : Point α) (k : α) : Point α :=
  ⟨p.x * k, p.y * k⟩

/-- The distance between two points. -/
def distance (p q : Point α) : α :=
  hypot (p.x - q.x) (p.y - q.y)

/-- Whether two points have the same coordinates as numbers. -/
def same (p q : Point α) : Bool :=
  p.x == q.x && p.y == q.y

end Point

namespace Rect

variable [Scalar α]

/-- The rectangle without extent at the origin. -/
def zero : Rect α := ⟨0, 0, 0, 0⟩

def left (r : Rect α) : α := r.x

def right (r : Rect α) : α := r.x + r.width

def top (r : Rect α) : α := r.y

def bottom (r : Rect α) : α := r.y + r.height

def center (r : Rect α) : Point α :=
  ⟨r.x + half r.width, r.y + half r.height⟩

/-- Whether the point lies in the rectangle or on its border. -/
def contains (r : Rect α) (p : Point α) : Bool :=
  r.x ≤ p.x && p.x ≤ r.right && r.y ≤ p.y && p.y ≤ r.bottom

/-- The rectangle of that size around a point. -/
def around (c : Point α) (width height : α) : Rect α :=
  ⟨c.x - half width, c.y - half height, width, height⟩

/-- Whether two rectangles agree in all four numbers. -/
def same (r q : Rect α) : Bool :=
  r.x == q.x && r.y == q.y && r.width == q.width && r.height == q.height

/-- Whether the rectangle has neither width nor height. -/
def isEmpty (r : Rect α) : Bool :=
  r.width ≤ 0 && r.height ≤ 0

/-- The least rectangle that covers both, of which an empty one counts for
    nothing. -/
def union (r q : Rect α) : Rect α :=
  if r.isEmpty then q
  else if q.isEmpty then r
  else
    let left := if r.left < q.left then r.left else q.left
    let top := if r.top < q.top then r.top else q.top
    let right := if q.right < r.right then r.right else q.right
    let bottom := if q.bottom < r.bottom then r.bottom else q.bottom
    ⟨left, top, right - left, bottom - top⟩

end Rect

end LiveDiagram
