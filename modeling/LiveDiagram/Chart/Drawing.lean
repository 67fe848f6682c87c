import LiveDiagram.Chart.Basic
import LiveDiagram.Surface.Label
import LiveDiagram.Surface.Part

namespace LiveDiagram

open Scalar

variable {α : Type} [Scalar α]

namespace NodeItem

/-- A resize handle, which only a selected node shows. -/
def handlePrimitive (n : NodeItem α) (h : Handle) : Primitive α where
  shape := .rect
    (Rect.around (n.rect.handlePoint h) Layout.handleSize Layout.handleSize)
  paint := .plain "#3498db" "#2980b9"
  z := 4
  visible := n.selected

/-- The body of a node. -/
def bodyPrimitive (n : NodeItem α) : Primitive α where
  shape := .roundedRect n.rect cornerRadius
  paint :=
    { fill := n.style.fill, stroke := n.style.stroke, strokeWidth := n.style.strokeWidth }
  z := 1

/-- The marks that draw a node. -/
def marks (id : String) (n : NodeItem α) : List (Mark α) :=
  [.put (Part.node id).id n.bodyPrimitive,
    .put (Part.nodeLabel id).id (.label n.rect n.label n.style.textColor "" 2)]
    ++ Handle.all.map fun h => .put (Part.nodeHandle id h).id (n.handlePrimitive h)

/-- The ids of all parts of a node. -/
def partIds (id : String) : List String :=
  [(Part.node id).id, (Part.nodeLabel id).id]
    ++ Handle.all.map fun h => (Part.nodeHandle id h).id

end NodeItem

namespace EdgeItem

/-- The colour of an edge that is not selected, and of all labels. -/
def plainColor : String := "#34495e"

/-- The colour of the lines of an edge. -/
def color (e : EdgeItem α) : String :=
  if e.selected then "#e74c3c" else plainColor

/-- The line or the curve of an edge. -/
def pathPrimitive (e : EdgeItem α) : Primitive α where
  shape := match e.route.controls with
    | some (c1, c2) => .cubicPath [e.route.start, c1, c2, e.route.finish]
    | none => .line [e.route.start, e.route.finish]
  paint := { stroke := e.color, strokeWidth := if e.selected then 3 else 2 }
  z := 0

/-- An arrow head of an edge. -/
def arrowPrimitive (e : EdgeItem α) (tip : Point α) (degrees : α) : Primitive α where
  shape := .polygon (arrowHead tip degrees)
  paint := .plain e.color e.color
  z := 3

/-- The label of an edge, around its anchor. -/
def labelPrimitive (measure : Measure α) (e : EdgeItem α) : Primitive α :=
  let size := labelSize (measure e.edge.label)
  .label (Rect.around e.route.labelAnchor size.width size.height) e.edge.label plainColor
    labelBackground 10

/-- Where a point of the edge is. -/
def pointAt (e : EdgeItem α) : EdgePoint → Point α
  | .start => e.route.start
  | .finish => e.route.finish
  | .control1 => e.route.handle1
  | .control2 => e.route.handle2

/-- A point by which the edge is dragged, which only a selected edge shows. Ends
    and control points have different colours. -/
def pointPrimitive (e : EdgeItem α) (p : EdgePoint) : Primitive α :=
  let (fill, stroke) := match p with
    | .start | .finish => ("#2ecc71", "#27ae60")
    | .control1 | .control2 => ("#3498db", "#2980b9")
  { shape := .circle
      (Rect.around (e.pointAt p) (2 * Layout.edgePointRadius) (2 * Layout.edgePointRadius))
    paint := { fill, stroke, strokeWidth := 2 }
    z := 150
    visible := e.selected }

/-- The marks that draw an edge. Each part of the edge is put or erased, so that
    drawing it again also removes the parts that it no longer has. -/
def marks (measure : Measure α) (key : String) (e : EdgeItem α) : List (Mark α) :=
  [.put (Part.edgePath key).id e.pathPrimitive,
    .put (Part.edgeEndArrow key).id (e.arrowPrimitive e.route.finish e.route.endAngle),
    match e.edge.kind with
    | .bidirectional =>
      .put (Part.edgeStartArrow key).id (e.arrowPrimitive e.route.start e.route.startAngle)
    | .arrow => .erase (Part.edgeStartArrow key).id,
    if e.edge.label.isEmpty then .erase (Part.edgeLabel key).id
    else .put (Part.edgeLabel key).id (e.labelPrimitive measure)]
    ++ EdgePoint.all.map fun p => .put (Part.edgePoint key p).id (e.pointPrimitive p)

/-- The ids of all parts of an edge. -/
def partIds (key : String) : List String :=
  [(Part.edgePath key).id, (Part.edgeEndArrow key).id, (Part.edgeStartArrow key).id,
    (Part.edgeLabel key).id]
    ++ EdgePoint.all.map fun p => (Part.edgePoint key p).id

end EdgeItem

namespace ChartStage

/-- Draws a node of the chart. -/
def drawNode (s : ChartStage α) (id : String) : Outcome (ChartStage α) :=
  match s.picture.nodes[id]? with
  | some n => s.draw (n.marks id)
  | none => .done s

/-- Draws an edge of the chart. -/
def drawEdge (s : ChartStage α) (key : String) : Outcome (ChartStage α) :=
  match s.picture.edges[key]? with
  | some e => s.draw (e.marks s.measure key)
  | none => .done s

end ChartStage

end LiveDiagram
