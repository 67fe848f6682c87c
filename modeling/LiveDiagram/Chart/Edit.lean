import LiveDiagram.Chart.Routing
import LiveDiagram.Layout.Placement

namespace LiveDiagram

/-- The two ends of an edge. -/
inductive EdgeEnd where
  | start
  | finish
  deriving DecidableEq, Repr, Inhabited

/-- The name of an end of an edge. -/
def EdgeEnd.name : EdgeEnd → String
  | start => "start"
  | finish => "end"

namespace ChartStage

variable {α : Type} [Scalar α]

/-- Changes a node that is there, and draws it. An operation on a node or an
    edge that is not there does nothing. -/
def modifyNode (s : ChartStage α) (id : String) (f : NodeItem α → NodeItem α) :
    Outcome (ChartStage α) :=
  match s.picture.nodes[id]? with
  | some n => (s.set (s.picture.setNode id (f n))).drawNode id
  | none => .done s

/-- Records the rectangle of a node. Moving a node leaves the store alone until
    then; all other changes of geometry are recorded at once. -/
def commitNode (s : ChartStage α) (id : String) : ChartStage α :=
  match s.picture.nodes[id]? with
  | some n => s.commit id n.rect
  | none => s

/-- Moves the corner of a node to a point, and its edges with it. -/
def moveNode (s : ChartStage α) (id : String) (corner : Point α) : Outcome (ChartStage α) :=
  (s.modifyNode id fun n => { n with rect := { n.rect with x := corner.x, y := corner.y } }).andThen
    fun s => .done (s.notifyDependents id)

/-- Resizes a node by dragging one of its handles, and records its rectangle. -/
def resizeNode (s : ChartStage α) (id : String) (h : Handle) (step : Point α) :
    Outcome (ChartStage α) :=
  (s.modifyNode id fun n => { n with rect := n.rect.resize h step Layout.minNodeSize }).andThen
    fun s => .done ((s.notifyDependents id).commitNode id)

/-- Selects a node or takes it out of the selection. -/
def setSelected (s : ChartStage α) (id : String) (selected : Bool) : Outcome (ChartStage α) :=
  match s.picture.nodes[id]? with
  | some n => if n.selected = selected then .done s else s.modifyNode id ({ · with selected })
  | none => .done s

/-- Takes all nodes out of the selection. -/
def clearSelection (s : ChartStage α) : Outcome (ChartStage α) :=
  Outcome.forEach s.picture.nodes.keys (fun id s => s.setSelected id false) s

/-- Marks an edge that is there as selected or not, and draws it. -/
def markEdge (s : ChartStage α) (key : String) (selected : Bool) : Outcome (ChartStage α) :=
  match s.picture.edges[key]? with
  | some e => (s.set (s.picture.setEdge key { e with selected })).drawEdge key
  | none => .done s

/-- Takes the selected edge out of the selection. It stays the selected one if
    it cannot be drawn. -/
def deselectEdge (s : ChartStage α) : Outcome (ChartStage α) :=
  match s.picture.selectedEdge with
  | none => .done s
  | some key =>
    (s.markEdge key false).andThen fun s => .done (s.set { s.picture with selectedEdge := none })

/-- Selects an edge in place of the one that is selected. -/
def selectEdge (s : ChartStage α) (key : String) : Outcome (ChartStage α) :=
  if s.picture.selectedEdge = some key then
    .done s
  else
    s.deselectEdge.andThen fun s =>
      if s.picture.edges.contains key then
        (s.set { s.picture with selectedEdge := some key }).markEdge key true
      else
        .done s

/-- Selects an edge, or takes it out of the selection if it is the selected
    one. -/
def toggleEdge (s : ChartStage α) (key : String) : Outcome (ChartStage α) :=
  if s.picture.selectedEdge = some key then s.deselectEdge else s.selectEdge key

/-- Changes the shape of an edge that is there, records it, and routes the edge
    anew. The change is given the rectangles of the two ends. -/
def reshapeEdge (s : ChartStage α) (key : String)
    (f : EdgeShape α → Rect α → Rect α → EdgeShape α) : Outcome (ChartStage α) :=
  match s.picture.edges[key]? with
  | none => .done s
  | some e =>
    match s.picture.ends? e.edge with
    | none => .done s
    | some (source, target) =>
      let shape := f e.shape source target
      ((s.set (s.picture.setEdge key { e with shape })).persistEdge e.edge shape).updateEdge key

/-- Drags an end of an edge: it goes to the border of its node, in the direction
    of the point. -/
def setAnchor (s : ChartStage α) (key : String) (which : EdgeEnd) (p : Point α) :
    Outcome (ChartStage α) :=
  s.reshapeEdge key fun shape source target =>
    match which with
    | .start => { shape with startOffset := some (source.borderPoint p - source.center) }
    | .finish => { shape with endOffset := some (target.borderPoint p - target.center) }

/-- Moves a control point of an edge, the first one or else the second. -/
def setControl (s : ChartStage α) (key : String) (index : Int) (p : Point α) :
    Outcome (ChartStage α) :=
  s.reshapeEdge key fun shape _ _ =>
    if index = 1 then { shape with control1 := some p } else { shape with control2 := some p }

/-- Makes a straight edge a curve and a curve straight. A new curve gets the
    control points that it lacks, which are recorded before the shape as a whole
    is. -/
def toggleCurve (s : ChartStage α) (key : String) : Outcome (ChartStage α) :=
  match s.picture.edges[key]? with
  | none => .done s
  | some e =>
    match s.picture.ends? e.edge with
    | none => .done s
    | some (source, target) =>
      let (s, shape) :=
        s.completeShape e.edge { e.shape with curved := !e.shape.curved } source target
      ((s.set (s.picture.setEdge key { e with shape })).persistEdge e.edge shape).updateEdge key

/-- Restyles all nodes after the settings have changed; one that is refused does
    not stop the others. -/
def restyle (s : ChartStage α) : ChartStage α :=
  s.picture.nodes.keys.foldl
    (fun s id => (s.modifyNode id fun n => { n with style := s.styleFor n.className }).state) s

/-- Fits a node to its label, snaps it to the grid and records its rectangle,
    which is left out when the node cannot be drawn. -/
def normalizeNode (s : ChartStage α) (id : String) : Outcome (ChartStage α) :=
  (s.modifyNode id fun n => { n with rect := Layout.normalized n.rect (s.measure n.label) }).andThen
    fun s => .done (s.commitNode id)

/-- Normalizes all nodes, one that is refused not stopping the others, and then
    routes all edges. -/
def normalizeLayout (s : ChartStage α) : ChartStage α :=
  let s := s.picture.nodes.keys.foldl (fun s id => (s.normalizeNode id).state) s
  s.updateEdges s.picture.edges.keys

end ChartStage

end LiveDiagram
