import LiveDiagram.Positions.Basic
import LiveDiagram.Stage.Basic
import LiveDiagram.Style.NodeStyle

namespace LiveDiagram

/-- A node on a chart. It lists the edges that end at it, so that moving the
    node can redraw them. -/
structure NodeItem (α : Type) where
  label : String
  className : Option String
  style : NodeStyle α
  rect : Rect α
  /-- The keys of the edges that end at the node. -/
  edgeKeys : List String := []
  selected : Bool := false
  deriving DecidableEq, Repr, Inhabited

/-- An edge on a chart. -/
structure EdgeItem (α : Type) where
  edge : Edge
  shape : EdgeShape α
  route : Route α
  selected : Bool := false
  deriving DecidableEq, Repr, Inhabited

/-- The picture of a flowchart: nodes by id and edges by key, each with its
    place, its style and whether it is selected. -/
structure Chart (α : Type) where
  nodes : Std.ExtTreeMap String (NodeItem α) := ∅
  edges : Std.ExtTreeMap String (EdgeItem α) := ∅
  classes : Std.ExtTreeMap String Properties := ∅
  direction : Direction := .topDown
  /-- The key of the selected edge. -/
  selectedEdge : Option String := none

namespace Chart

variable {α : Type}

/-- A chart without nodes. -/
def empty : Chart α := {}

/-- The chart with a node replaced or added. -/
def setNode (c : Chart α) (id : String) (n : NodeItem α) : Chart α :=
  { c with nodes := c.nodes.insert id n }

/-- The chart with an edge replaced or added. -/
def setEdge (c : Chart α) (key : String) (e : EdgeItem α) : Chart α :=
  { c with edges := c.edges.insert key e }

/-- Lists an edge at a node that exists. -/
def link (c : Chart α) (key id : String) : Chart α :=
  { c with nodes := c.nodes.modify id fun n => { n with edgeKeys := n.edgeKeys ++ [key] } }

/-- Takes an edge off the list of a node. -/
def unlink (c : Chart α) (key id : String) : Chart α :=
  { c with nodes := c.nodes.modify id fun n =>
      { n with edgeKeys := n.edgeKeys.filter fun k => k != key } }

/-- The ids of the selected nodes, in order. -/
def selectedNodes (c : Chart α) : List String :=
  (c.nodes.toList.filter fun n => n.2.selected).map (·.1)

/-- The rectangles of the two ends of an edge. -/
def ends? (c : Chart α) (e : Edge) : Option (Rect α × Rect α) :=
  match c.nodes[e.source]?, c.nodes[e.target]? with
  | some source, some target => some (source.rect, target.rect)
  | _, _ => none

end Chart

/-- A stage with a chart on it. -/
abbrev ChartStage (α : Type) := Stage (Chart α) α

namespace ChartStage

variable {α : Type} [Scalar α]

/-- The style of a node of that class. -/
def styleFor (s : ChartStage α) (className : Option String) : NodeStyle α :=
  NodeStyle.resolve s.settings (className.bind fun name => s.picture.classes[name]?)

/-- The stage with another chart. -/
def set (s : ChartStage α) (c : Chart α) : ChartStage α :=
  { s with picture := c }

end ChartStage

end LiveDiagram
