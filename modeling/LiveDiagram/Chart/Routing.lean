import LiveDiagram.Chart.Drawing

namespace LiveDiagram

namespace ChartStage

variable {α : Type} [Scalar α]

/-- Records the shape of an edge. -/
def persistEdge (s : ChartStage α) (e : Edge) (shape : EdgeShape α) : ChartStage α :=
  { s with store := s.store.updateEdge e.key shape.toUpdate }

/-- The shape with the control points that it lacks, which are recorded: a curve
    is never routed without them. -/
def completeShape (s : ChartStage α) (e : Edge) (shape : EdgeShape α) (source target : Rect α) :
    ChartStage α × EdgeShape α :=
  if shape.lacksControls then
    let shape := shape.withControls source target
    (s.persistEdge e shape, shape)
  else
    (s, shape)

/-- Routes an edge anew between the current rectangles of its ends and draws
    it. -/
def updateEdge (s : ChartStage α) (key : String) : Outcome (ChartStage α) :=
  match s.picture.edges[key]? with
  | none => .done s
  | some e =>
    match s.picture.ends? e.edge with
    | none => .done s
    | some (source, target) =>
      let (s, shape) := s.completeShape e.edge e.shape source target
      (s.set (s.picture.setEdge key { e with shape, route := shape.route source target })).drawEdge
        key

/-- Routes edges anew and draws them; one that is refused does not stop the
    others. -/
def updateEdges (s : ChartStage α) (keys : List String) : ChartStage α :=
  keys.foldl (fun s key => (s.updateEdge key).state) s

/-- Routes and draws all edges that end at a node. -/
def notifyDependents (s : ChartStage α) (id : String) : ChartStage α :=
  match s.picture.nodes[id]? with
  | some n => s.updateEdges n.edgeKeys
  | none => s

end ChartStage

end LiveDiagram
