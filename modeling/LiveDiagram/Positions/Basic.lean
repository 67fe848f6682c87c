import LiveDiagram.Flowchart.Basic
import LiveDiagram.Plane.Route

namespace LiveDiagram

variable {α : Type}

/-- What is remembered of a diagram beyond its text: the rectangles of nodes and
    participants by id, and the shapes of edges by key. A rectangle whose width
    or height is not positive records no size. -/
structure Positions (α : Type) where
  nodes : Std.ExtTreeMap String (Rect α) := ∅
  edges : Std.ExtTreeMap String (EdgeShape α) := ∅

/-- A change to the record of an edge; what it does not give stays as it is. -/
structure EdgeUpdate (α : Type) where
  curved : Option Bool := none
  startOffset : Option (Point α) := none
  endOffset : Option (Point α) := none
  control1 : Option (Point α) := none
  control2 : Option (Point α) := none
  deriving Repr, Inhabited

/-- The shape with a change applied to it. -/
def EdgeShape.update (e : EdgeShape α) (u : EdgeUpdate α) : EdgeShape α where
  curved := u.curved.getD e.curved
  startOffset := u.startOffset <|> e.startOffset
  endOffset := u.endOffset <|> e.endOffset
  control1 := u.control1 <|> e.control1
  control2 := u.control2 <|> e.control2

/-- The change that gives all that the shape has. -/
def EdgeShape.toUpdate (e : EdgeShape α) : EdgeUpdate α where
  curved := some e.curved
  startOffset := e.startOffset
  endOffset := e.endOffset
  control1 := e.control1
  control2 := e.control2

namespace Positions

/-- No positions at all. -/
def empty : Positions α := {}

instance : Inhabited (Positions α) := ⟨empty⟩

/-- Whether nothing is recorded. -/
def isEmpty (p : Positions α) : Bool :=
  p.nodes.isEmpty && p.edges.isEmpty

/-- The positions with the rectangle of a node recorded. -/
def setNode (p : Positions α) (id : String) (r : Rect α) : Positions α :=
  { p with nodes := p.nodes.insert id r }

/-- The positions with a change to the shape of an edge recorded. -/
def updateEdge (p : Positions α) (key : String) (u : EdgeUpdate α) : Positions α :=
  { p with edges := p.edges.insert key ((p.edges.getD key {}).update u) }

end Positions

end LiveDiagram
