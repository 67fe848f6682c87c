import LiveDiagram.Surface.Primitive
import Std.Data.ExtTreeMap

namespace LiveDiagram

variable {α : Type}

/-- A retained set of primitives, kept under ids until they are replaced or
    removed. A surface may refuse some ids. -/
structure Surface (α : Type) where
  primitives : Std.ExtTreeMap String (Primitive α) := ∅
  /-- How many changes there were. -/
  revision : Nat := 0
  /-- The ids under which nothing can be put. -/
  refused : List String := []

instance : Inhabited (Surface α) := ⟨{}⟩

/-- A step of drawing. -/
inductive Mark (α : Type) where
  | put (id : String) (p : Primitive α)
  | erase (id : String)
  deriving DecidableEq, Repr

/-- What a surface says when it refuses a primitive. -/
structure Refusal where
  id : String
  deriving DecidableEq, Repr

def Refusal.message (r : Refusal) : String :=
  "cannot draw " ++ r.id

namespace Surface

/-- Puts a primitive under an id, in place of the one that is there. -/
def put (s : Surface α) (id : String) (p : Primitive α) : Surface α :=
  { s with primitives := s.primitives.insert id p, revision := s.revision + 1 }

/-- Removes the primitive under an id; it is no change if there is none. -/
def erase (s : Surface α) (id : String) : Surface α :=
  if s.primitives.contains id then
    { s with primitives := s.primitives.erase id, revision := s.revision + 1 }
  else
    s

/-- Removes all primitives. -/
def clear (s : Surface α) : Surface α :=
  { s with primitives := ∅, revision := s.revision + 1 }

/-- Draws mark after mark, up to the first that is refused; what was drawn
    before stays. -/
def draw (s : Surface α) : List (Mark α) → Surface α × Option Refusal
  | [] => (s, none)
  | .put id p :: marks =>
    if s.refused.contains id then (s, some ⟨id⟩) else (s.put id p).draw marks
  | .erase id :: marks => (s.erase id).draw marks

/-- The primitive under an id. -/
def find? (s : Surface α) (id : String) : Option (Primitive α) :=
  s.primitives[id]?

/-- The primitives from the lowest to the highest; those at one height in the
    order of their ids. -/
def drawOrder (s : Surface α) : List (String × Primitive α) :=
  s.primitives.toList.mergeSort fun p q => p.2.z ≤ q.2.z

variable [Scalar α]

/-- The rectangle that the visible primitives take up. -/
def bounds (s : Surface α) : Rect α :=
  (s.primitives.toList.filter fun p => p.2.visible).foldl
    (fun r p => r.union p.2.shape.bounds) Rect.zero

end Surface

end LiveDiagram
