import LiveDiagram.Chart.Routing
import LiveDiagram.Layout.Placement

namespace LiveDiagram

namespace ChartStage

variable {α : Type} [Scalar α]

/-- Removes an edge from the chart and the surface. -/
def removeEdge (s : ChartStage α) (key : String) : ChartStage α :=
  match s.picture.edges[key]? with
  | none => s
  | some e =>
    let c := (s.picture.unlink key e.edge.source).unlink key e.edge.target
    let c := if c.selectedEdge = some key then { c with selectedEdge := none } else c
    (s.set { c with edges := c.edges.erase key }).eraseParts (EdgeItem.partIds key)

/-- Removes a node and the edges that end at it from the chart and the
    surface. -/
def removeNode (s : ChartStage α) (id : String) : ChartStage α :=
  match s.picture.nodes[id]? with
  | none => s
  | some n =>
    let s : ChartStage α := (n.edgeKeys.foldl removeEdge s).eraseParts (NodeItem.partIds id)
    s.set { s.picture with nodes := s.picture.nodes.erase id }

/-- A recorded rectangle, with the default where it records no size. -/
def recordedRect (r : Rect α) : Rect α :=
  { r with
    width := if 0 < r.width then r.width else Layout.nodeWidth
    height := if 0 < r.height then r.height else Layout.nodeHeight }

/-- Adds a node, the one with that index in the flowchart, and draws it. -/
def createNode (s : ChartStage α) (spec : Node) (index : Nat) : Outcome (ChartStage α) :=
  let s : ChartStage α := { s with store := s.store.load }
  let rect := match s.store.node? spec.id with
    | some r => recordedRect r
    | none => Layout.nodeRect index s.picture.direction
  let n : NodeItem α :=
    { label := spec.label, className := spec.className, style := s.styleFor spec.className, rect }
  (s.set (s.picture.setNode spec.id n)).drawNode spec.id

/-- Gives a node the label and the class that the flowchart states, and draws
    it. -/
def updateNode (s : ChartStage α) (n : NodeItem α) (spec : Node) : Outcome (ChartStage α) :=
  let n := { n with
    label := spec.label, className := spec.className, style := s.styleFor spec.className }
  (s.set (s.picture.setNode spec.id n)).drawNode spec.id

/-- Adds or updates a node of the flowchart. -/
def placeNode (s : ChartStage α) (spec : Node) (index : Nat) : Outcome (ChartStage α) :=
  match s.picture.nodes[spec.id]? with
  | some n => s.updateNode n spec
  | none => s.createNode spec index

/-- Adds an edge between two nodes of the chart and draws it. -/
def createEdge (s : ChartStage α) (spec : Edge) (source target : Rect α) :
    Outcome (ChartStage α) :=
  let s : ChartStage α := { s with store := s.store.load }
  let shape := (s.store.edge? spec.key).getD {}
  let c := s.picture.link spec.key spec.source
  let c := if spec.target = spec.source then c else c.link spec.key spec.target
  (s.set (c.setEdge spec.key { edge := spec, shape, route := shape.route source target })).updateEdge
    spec.key

/-- Adds an edge of the flowchart, unless the chart has it or lacks one of its
    ends. -/
def placeEdge (s : ChartStage α) (spec : Edge) : ChartStage α :=
  if s.picture.edges.contains spec.key then
    s
  else
    match s.picture.ends? spec with
    | some (source, target) => (s.createEdge spec source target).state
    | none => s

/-- The edges without those that have the key of an earlier one. -/
def distinctEdges (edges : List Edge) : List Edge :=
  edges.foldl (fun kept e => if kept.any fun k => k.key == e.key then kept else kept ++ [e]) []

/-- Removes the nodes of the chart that the flowchart does not have. -/
def removeStaleNodes (s : ChartStage α) (d : Flowchart) : ChartStage α :=
  (s.picture.nodes.keys.filter fun id => !d.nodes.any fun n => n.id == id).foldl removeNode s

/-- Adds and updates the nodes of the flowchart, in its order. -/
def placeNodes (s : ChartStage α) (d : Flowchart) : ChartStage α :=
  d.nodes.zipIdx.foldl (fun s (spec, index) => (s.placeNode spec index).state) s

/-- Adds the edges of the flowchart, in its order. -/
def placeEdges (s : ChartStage α) (edges : List Edge) : ChartStage α :=
  edges.foldl placeEdge s

/-- Removes the edges of the chart that the flowchart does not have. -/
def removeStaleEdges (s : ChartStage α) (edges : List Edge) : ChartStage α :=
  (s.picture.edges.keys.filter fun key => !edges.any fun e => e.key == key).foldl removeEdge s

/-- Brings the chart in line with a flowchart. Nodes and edges that the
    flowchart no longer has are removed, those it still has keep their places
    and their selection, and new ones take their recorded places or else the
    default ones. A refusal of the surface stops the drawing of the node or edge
    at hand and nothing else. -/
def render (s : ChartStage α) (d : Flowchart) : ChartStage α :=
  let edges := distinctEdges d.edges
  let s := s.set { s.picture with classes := d.classes, direction := d.direction }
  let s := (((s.removeStaleNodes d).placeNodes d).placeEdges edges).removeStaleEdges edges
  s.updateEdges s.picture.edges.keys

end ChartStage

end LiveDiagram
