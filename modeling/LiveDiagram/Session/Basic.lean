import LiveDiagram.Chart.Edit
import LiveDiagram.Chart.Render
import LiveDiagram.Source.Diagram
import LiveDiagram.Timeline.Edit
import LiveDiagram.Timeline.Render

namespace LiveDiagram

variable {α : Type}

/-- The picture of a diagram. -/
inductive Picture (α : Type) where
  | chart (c : Chart α)
  | timeline (t : Timeline α)

/-- A stage on which diagrams of both kinds can be shown. Showing a diagram of
    the other kind starts from an empty surface and an empty picture; operations
    on the other kind of picture do nothing. -/
abbrev Session (α : Type) := Stage (Picture α) α

namespace Picture

/-- The chart, an empty one if the picture is a timeline. -/
def chartOrEmpty : Picture α → Chart α
  | chart c => c
  | timeline _ => .empty

/-- The timeline, an empty one if the picture is a chart. -/
def timelineOrEmpty : Picture α → Timeline α
  | chart _ => .empty
  | timeline t => t

end Picture

namespace Session

/-- A session that shows nothing yet. -/
def start (measure : Measure α) (store : Store α) : Session α where
  picture := .chart .empty
  store
  measure

/-- Does something to the chart, if there is one. -/
def onChart (s : Session α) (f : ChartStage α → Outcome (ChartStage α)) : Outcome (Session α) :=
  match s.picture with
  | .chart c => (f (s.withPicture c)).map fun t => t.withPicture (.chart t.picture)
  | .timeline _ => .done s

/-- Does something to the timeline, if there is one. -/
def onTimeline (s : Session α) (f : TimelineStage α → Outcome (TimelineStage α)) :
    Outcome (Session α) :=
  match s.picture with
  | .chart _ => .done s
  | .timeline t => (f (s.withPicture t)).map fun u => u.withPicture (.timeline u.picture)

/-- Drops the picture and clears the surface. The class styles and the direction
    go with the picture, where a program may as well keep them: every flowchart
    brings its own before either is read again. -/
def clear (s : Session α) : Session α :=
  s.clearSurface.withPicture (.chart .empty)

/-- The stage for a flowchart: the chart that is shown, or else an empty one on
    an empty surface. -/
def chartStage (s : Session α) : ChartStage α :=
  match s.picture with
  | .chart c => s.withPicture c
  | .timeline _ => s.clearSurface.withPicture .empty

/-- The stage for a sequence diagram with these participants: the timeline that
    is shown, or else an empty one on an empty surface. A timeline whose
    participants were others, or in another order, is given up too. -/
def timelineStage (s : Session α) (ids : List String) : TimelineStage α :=
  match s.picture with
  | .timeline t =>
    if t.order.isEmpty || t.order == ids then s.withPicture t else s.clearSurface.withPicture .empty
  | .chart _ => s.clearSurface.withPicture .empty

variable [Scalar α]

/-- Shows a flowchart. -/
def renderFlowchart (s : Session α) (d : Flowchart) : Session α :=
  let t := ChartStage.render s.chartStage d
  t.withPicture (.chart t.picture)

/-- Shows a sequence diagram. -/
def renderSequence (s : Session α) (d : Sequence) : Outcome (Session α) :=
  (TimelineStage.render (s.timelineStage (d.participants.map Participant.id)) d).map fun t =>
    t.withPicture (.timeline t.picture)

/-- Shows a diagram. -/
def render (s : Session α) : Diagram → Outcome (Session α)
  | .flowchart d => .done (s.renderFlowchart d)
  | .sequence d => s.renderSequence d

/-- Applies settings to everything that is shown. -/
def updateSettings (s : Session α) (settings : Settings) : Session α :=
  let s : Session α := { s with settings }
  (s.onChart fun t => .done (ChartStage.restyle t)).state

end Session

end LiveDiagram
