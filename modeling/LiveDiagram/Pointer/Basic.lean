import LiveDiagram.Pointer.Hit

namespace LiveDiagram

/-- The button of a press or a release. -/
inductive Button where
  | left
  | right
  deriving DecidableEq, Repr, Inhabited

/-- What is being dragged; what exactly it is, the last press says. Nodes and
    participants are placed from where they were at the press, so rounding does
    not add up; edge points and handles follow step by step. -/
inductive Drag (α : Type) where
  | nothing
  /-- Nodes, with where their corners were at the press. -/
  | nodes (starts : List (String × Point α))
  | handle
  | edgePoint
  /-- A participant, with where its left side was at the press. -/
  | participant (startX : α)
  deriving DecidableEq, Repr, Inhabited

/-- The state of the pointer. -/
structure Pointer (α : Type) where
  drag : Drag α := .nothing
  /-- What the last press hit, until the release. -/
  active : Hit := .nothing
  /-- Where the last press was. -/
  pressed : Point α
  /-- Where the pointer was last. -/
  last : Point α
  deriving Inhabited

/-- A session with the pointer that acts on it. A press takes hold of what is
    under the pointer, moves drag it, and the release commits the drag. -/
structure Desk (α : Type) where
  session : Session α
  pointer : Pointer α

namespace Desk

variable {α : Type} [Scalar α]

/-- A desk on which nothing was pressed yet. -/
def start (session : Session α) : Desk α where
  session
  pointer := { pressed := Point.zero, last := Point.zero }

def isDragging (d : Desk α) : Bool :=
  match d.pointer.drag with
  | .nothing => false
  | _ => true

/-- Does something to the session and leaves the pointer as it is. -/
def onSession (d : Desk α) (f : Session α → Outcome (Session α)) : Outcome (Desk α) :=
  (f d.session).map fun session => { d with session }

/-- Does something to the chart of the session. -/
def onChart (d : Desk α) (f : ChartStage α → Outcome (ChartStage α)) : Outcome (Desk α) :=
  d.onSession fun s => s.onChart f

/-- Starts another drag. -/
def withDrag (d : Desk α) (drag : Drag α) : Desk α :=
  { d with pointer := { d.pointer with drag } }

/-- Makes the node the selection, or adds it to the selection; a selected one
    changes nothing. -/
def selectForDrag (id : String) (additive : Bool) (s : ChartStage α) : Outcome (ChartStage α) :=
  match s.picture.nodes[id]? with
  | none => .done s
  | some n =>
    if n.selected then
      .done s
    else
      (if additive then .done s else ChartStage.clearSelection s).andThen fun s =>
        ChartStage.setSelected s id true

/-- Where the corners of the selected nodes are. -/
def selectedCorners (c : Chart α) : List (String × Point α) :=
  (c.nodes.toList.filter fun n => n.2.selected).map fun (id, n) => (id, ⟨n.rect.x, n.rect.y⟩)

/-- Starts to drag the selected nodes, after the node that was hit has joined
    them. -/
def dragNodes (d : Desk α) (id : String) (additive : Bool) : Outcome (Desk α) :=
  (d.onChart (selectForDrag id additive)).andThen fun d =>
    match d.session.picture with
    | .chart c => .done (d.withDrag (.nodes (selectedCorners c)))
    | .timeline _ => .done d

/-- Starts to drag a participant. -/
def dragParticipant (d : Desk α) (id : String) : Desk α :=
  match d.session.picture.timelineOrEmpty.participants[id]? with
  | some p => d.withDrag (.participant p.x)
  | none => d

/-- Takes hold of what a press of the left button hit. -/
def grab (d : Desk α) (additive : Bool) : Hit → Outcome (Desk α)
  | .edgeAnchor _ _ | .edgeControl _ _ => .done (d.withDrag .edgePoint)
  | .edgePath key => d.onChart fun s => s.toggleEdge key
  | .handle _ _ => .done (d.withDrag .handle)
  | .node id => d.dragNodes id additive
  | .participant id => .done (d.dragParticipant id)
  | .nothing => d.onChart ChartStage.clearSelection

/-- A press. The right button bends an edge or makes it straight; the left one
    takes hold of what it hits, and takes the selected edge out of the selection
    unless it hits an edge. -/
def press (d : Desk α) (p : Point α) (button : Button) (additive : Bool) : Outcome (Desk α) :=
  let hit := d.session.hit p
  let d : Desk α := { d with pointer := { d.pointer with pressed := p, last := p } }
  match button with
  | .right => if hit.isEdge then d.onChart fun s => s.toggleCurve hit.id else .done d
  | .left =>
    let d : Desk α := { d with pointer := { d.pointer with active := hit } }
    (if hit.isEdge then .done d else d.onChart ChartStage.deselectEdge).andThen fun d =>
      d.grab additive hit

/-- Drags the point of an edge that was hit by the step to a point. -/
def dragEdgePoint (active : Hit) (p last : Point α) (s : ChartStage α) : Outcome (ChartStage α) :=
  match active with
  | .edgeAnchor key which => s.setAnchor key which p
  | _ =>
    match s.picture.edges[active.id]? with
    | none => .done s
    | some e =>
      let held := if active.control = 1 then e.route.handle1 else e.route.handle2
      s.setControl active.id active.control
        ⟨held.x + p.x - last.x, held.y + p.y - last.y⟩

/-- Drags what is being dragged to a point. -/
def dragTo (d : Desk α) (p : Point α) : Outcome (Desk α) :=
  let step := p - d.pointer.pressed
  match d.pointer.drag with
  | .nothing => .done d
  | .nodes starts =>
    d.onChart (Outcome.forEach starts fun (id, start) s =>
      s.moveNode id ⟨start.x + step.x, start.y + step.y⟩)
  | .handle =>
    d.onChart fun s =>
      s.resizeNode d.pointer.active.id d.pointer.active.resizeHandle (p - d.pointer.last)
  | .edgePoint => d.onChart (dragEdgePoint d.pointer.active p d.pointer.last)
  | .participant startX =>
    d.onSession fun s => s.onTimeline fun t => t.moveParticipant d.pointer.active.id (startX + step.x)

/-- A move. -/
def move (d : Desk α) (p : Point α) : Outcome (Desk α) :=
  (d.dragTo p).andThen fun d => .done { d with pointer := { d.pointer with last := p } }

/-- Records what was dragged. Nodes that are back where they were at the press
    are not recorded. -/
def commitDrag (d : Desk α) (p : Point α) : Desk α :=
  match d.pointer.drag with
  | .nodes starts =>
    if p.same d.pointer.pressed then
      d
    else
      (d.onChart fun s =>
        .done (starts.foldl (fun s (id, _) => ChartStage.commitNode s id) s)).state
  | .participant _ =>
    (d.onSession fun s => s.onTimeline fun t => .done (t.commitParticipant d.pointer.active.id)).state
  | _ => d

/-- A release. That of the left button ends the drag, after a last move if the
    pointer has moved. -/
def release (d : Desk α) (p : Point α) (button : Button) : Outcome (Desk α) :=
  match button with
  | .right => .done d
  | .left =>
    (if d.isDragging && !p.same d.pointer.last then d.move p else .done d).andThen fun d =>
      let d := d.commitDrag p
      .done { d with pointer := { d.pointer with drag := .nothing, active := .nothing } }

end Desk

end LiveDiagram
