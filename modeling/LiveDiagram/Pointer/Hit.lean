import LiveDiagram.Session.Basic

namespace LiveDiagram

open Scalar

/-- What a point hits: the topmost thing that a user can take hold of there. -/
inductive Hit where
  | nothing
  | node (id : String)
  | handle (id : String) (h : Handle)
  | edgePath (key : String)
  | edgeAnchor (key : String) (which : EdgeEnd)
  /-- A control point, the first or the second. -/
  | edgeControl (key : String) (index : Int)
  | participant (id : String)
  deriving DecidableEq, Repr, Inhabited

namespace Hit

/-- The name of the kind of thing that is hit. -/
def kindName : Hit → String
  | nothing => "none"
  | node _ => "node"
  | handle _ _ => "resize_handle"
  | edgePath _ => "edge_path"
  | edgeAnchor _ _ => "edge_anchor"
  | edgeControl _ _ => "edge_control"
  | participant _ => "participant"

/-- The id or the key of the thing that is hit. -/
def id : Hit → String
  | nothing => ""
  | node id | handle id _ | participant id => id
  | edgePath key | edgeAnchor key _ | edgeControl key _ => key

/-- The handle that is hit, the one on the lower right if none is. -/
def resizeHandle : Hit → Handle
  | handle _ h => h
  | _ => .se

/-- The end of an edge that is hit, the start if none is. -/
def anchor : Hit → EdgeEnd
  | edgeAnchor _ which => which
  | _ => .start

/-- The index of the control point that is hit, zero if none is. -/
def control : Hit → Int
  | edgeControl _ index => index
  | _ => 0

/-- Whether an edge is hit, at its path or at one of its points. -/
def isEdge : Hit → Bool
  | edgePath _ | edgeAnchor _ _ | edgeControl _ _ => true
  | _ => false

/-- What can be done with the thing that is hit, as the sum of one for
    selecting, two for dragging and four for what other things depend on. -/
def capabilities : Hit → Nat
  | nothing => 0
  | node _ => 1 + 2 + 4
  | edgePath _ => 1
  | participant _ => 2 + 4
  | handle _ _ | edgeAnchor _ _ | edgeControl _ _ => 2

end Hit

variable {α : Type} [Scalar α]

namespace Chart

/-- How near a press has to be to a point of an edge. -/
def pointReach : α := Layout.edgePointRadius + 2

/-- How near, in each coordinate, a press has to be to the middle of a resize
    handle. -/
def handleReach : α := half Layout.handleSize + 1

/-- The end or the control point of the edge that is hit. -/
def hitEdgePoint (key : String) (r : Route α) (p : Point α) : Option Hit :=
  [(r.start, Hit.edgeAnchor key .start), (r.finish, .edgeAnchor key .finish),
    (r.handle1, .edgeControl key 1), (r.handle2, .edgeControl key 2)].findSome? fun (q, hit) =>
      if p.distance q ≤ pointReach then some hit else none

/-- The point of the selected edge that is hit. -/
def hitSelectedEdge (c : Chart α) (p : Point α) : Option Hit := do
  let key ← c.selectedEdge
  let e ← c.edges[key]?
  hitEdgePoint key e.route p

/-- The handle of a selected node that is hit. -/
def hitHandle (c : Chart α) (p : Point α) : Option Hit :=
  (c.nodes.toList.filter fun n => n.2.selected).findSome? fun (id, n) =>
    (Handle.all.find? fun h =>
      let middle := n.rect.handlePoint h
      abs (p.x - middle.x) ≤ handleReach && abs (p.y - middle.y) ≤ handleReach).map (.handle id)

/-- The nearest edge within reach; of edges that are equally near, the last
    one. -/
def hitEdge (c : Chart α) (p : Point α) : Option Hit :=
  (c.edges.toList.foldl
    (fun (best, hit) (key, e) =>
      let d := e.route.distanceFrom p
      if d ≤ best then (d, some (.edgePath key)) else (best, hit))
    (Layout.edgeTolerance, none)).2

/-- The topmost node that is hit, which is the last one. -/
def hitNode (c : Chart α) (p : Point α) : Option Hit :=
  (c.nodes.toList.reverse.find? fun n => n.2.rect.contains p).map fun n => .node n.1

/-- What a point hits on a chart: the points of the selected edge, the resize
    handles of selected nodes, edges outside all nodes, then nodes. Nodes take
    presses before the edges that end on their borders. -/
def hit (c : Chart α) (p : Point α) : Hit :=
  (c.hitSelectedEdge p <|> c.hitHandle p
    <|> (if (c.hitNode p).isNone then c.hitEdge p else none) <|> c.hitNode p).getD .nothing

end Chart

/-- What a point hits on a timeline. -/
def Timeline.hit (t : Timeline α) (p : Point α) : Hit :=
  ((t.participants.toList.find? fun q => q.2.header.contains p).map fun q =>
    Hit.participant q.1).getD .nothing

/-- What a point hits on the picture. -/
def Session.hit (s : Session α) (p : Point α) : Hit :=
  match s.picture with
  | .chart c => c.hit p
  | .timeline t => t.hit p

end LiveDiagram
