import LiveDiagram.Proofs.Chart.Recorded
import LiveDiagram.Proofs.Pointer.Gesture
import LiveDiagram.Proofs.Pointer.Hits
import LiveDiagram.Proofs.Pointer.Recorded

namespace LiveDiagram

variable {α : Type}

/-- Where the first control point can be dragged, or else the second. -/
def Route.handle (r : Route α) (index : Int) : Point α :=
  if index = 1 then r.handle1 else r.handle2

namespace EdgeShape

/-- The control point that is left alone when the first one is dragged, or else
    the second. -/
def otherControl (e : EdgeShape α) (index : Int) : Option (Point α) :=
  if index = 1 then e.control2 else e.control1

/-- The shape with the first control point at a point, or else the second. -/
def withControl (e : EdgeShape α) (index : Int) (p : Point α) : EdgeShape α :=
  if index = 1 then { e with control1 := some p } else { e with control2 := some p }

variable {e : EdgeShape α} {index : Int} {p : Point α}

theorem otherControl_withControl : (e.withControl index p).otherControl index = e.otherControl index := by
  unfold otherControl withControl
  split <;> rfl

/-- A shape that lacks no control point lacks none when one of them is set. -/
theorem lacksControls_withControl (he : e.lacksControls = false) :
    (e.withControl index p).lacksControls = false := by
  unfold withControl
  split
  · simp_all [lacksControls]
  · simp_all [lacksControls]

variable [Scalar α]

/-- A control point that is set is where it can be dragged, on a straight edge
    too. There it is not drawn, but it is kept for the curve that the edge may
    become. -/
theorem route_handle_withControl (source target : Rect α) :
    ((e.withControl index p).route source target).handle index = p := by
  unfold route Route.handle withControl
  split
  · split <;> rfl
  · split <;> rfl

end EdgeShape

namespace Chart

/-- Where the first control point of the edge with that key can be dragged, or
    else the second. -/
def handle? (c : Chart α) (key : String) (index : Int) : Option (Point α) :=
  c.edges[key]?.map fun e => e.route.handle index

/-- The control point of that edge that is left alone then, if it has it. -/
def otherControl? (c : Chart α) (key : String) (index : Int) : Option (Point α) :=
  c.edges[key]?.bind fun e => e.shape.otherControl index

end Chart

variable [Scalar α]

namespace ChartStage

/-- Setting a control point of an edge on the chart takes it to where it is set,
    so that it is dragged from there next, and leaves the other one alone. On a
    complete chart routing the edge adds no other control point. -/
theorem setControl_controls {s : ChartStage α} (hlinked : s.picture.Linked) (hcomplete : s.picture.Complete)
    (key : String) (index : Int) (p : Point α) :
    (s.setControl key index p).state.picture.handle? key index = (s.picture.handle? key index).map (fun _ => p) ∧
      (s.setControl key index p).state.picture.otherControl? key index = s.picture.otherControl? key index := by
  unfold setControl reshapeEdge
  cases he : s.picture.edges[key]? with
  | none =>
    refine ⟨?_, rfl⟩
    rw [Chart.handle?, Chart.handle?, Outcome.done_state, he]
    rfl
  | some e =>
    obtain ⟨ends, hends⟩ := Option.isSome_iff_exists.mp (hlinked.ends?_isSome he)
    let e' : EdgeItem α := { e with shape := e.shape.withControl index p }
    have hshape : (e'.routed ends).shape = e'.shape := by
      have hlacks : e'.shape.lacksControls = false := EdgeShape.lacksControls_withControl (hcomplete key e he)
      exact EdgeShape.completed_of_lacksControls_eq_false hlacks ends.1 ends.2
    have hroute : (e'.routed ends).route = e'.shape.route ends.1 ends.2 := by
      rw [← hshape]
      rfl
    have hput : ((((s.set (s.picture.setEdge key e')).persistEdge e.edge e'.shape).updateEdge
        key).state.picture.edges[key]?) = some (e'.routed ends) := by
      rw [reshaped_eq hends, Stage.draw_picture, Chart.setEdge_getElem?, if_pos rfl]
    simp only [hends]
    constructor
    · refine (congrArg (Option.map _) hput).trans ?_
      rw [Option.map_some, hroute, EdgeShape.route_handle_withControl, Chart.handle?, he]
      rfl
    · refine (congrArg (fun o => Option.bind o _) hput).trans ?_
      rw [Option.bind_some, hshape, EdgeShape.otherControl_withControl, Chart.otherControl?, he]
      rfl

end ChartStage

namespace Session

/-- Where the control point with that index can be dragged on the chart that is
    shown. -/
def handle? (s : Session α) (key : String) (index : Int) : Option (Point α) :=
  s.picture.chartOrEmpty.handle? key index

/-- The other control point that the store records of the edge with that key. -/
def recordedControl? (s : Session α) (key : String) (index : Int) : Option (Point α) :=
  (s.store.edge? key).bind fun shape => shape.otherControl index

/-- What the store records of the other control point of an edge on the chart is
    what the edge has. -/
theorem Faithful.recordedControl? {s : Session α} (hs : s.Faithful) {key : String} {index : Int} {h : Point α}
    (hh : s.handle? key index = some h) :
    s.recordedControl? key index = s.picture.chartOrEmpty.otherControl? key index := by
  obtain ⟨e, he, -⟩ := Option.map_eq_some_iff.mp hh
  have hshape := hs.shapesRecorded.shape key e he
  rw [Session.recordedControl?, Chart.otherControl?, he, Option.bind_some, hshape]
  cases s.store.edge? key with
  | some shape => rfl
  | none => exact (ite_self (none : Option (Point α))).symm

end Session

namespace Desk

open ChartStage

/-- A control point that is hit is dragged from where it is. Control points are
    hit on the selected edge only, so the press selects nothing. -/
theorem press_control {d : Desk α} {p : Point α} {key : String} {index : Int}
    (hhit : d.session.hit p = .edgeControl key index) (additive : Bool) :
    ∃ c h, d.session.picture = .chart c ∧ c.handle? key index = some h ∧
      (d.press p .left additive).state = under d.session ⟨.edgePoint, .edgeControl key index, p, p⟩ p := by
  obtain ⟨c, hc, hkey⟩ := Session.chart_of_hit hhit ⟨by simp, by simp⟩
  refine ⟨c, c.edges[key].route.handle index, hc, ?_, ?_⟩
  · rw [Chart.handle?, Std.ExtTreeMap.getElem?_eq_some_getElem hkey]
    rfl
  · rw [press, hhit]
    rfl

/-- What is known of a session while a control point is dragged from a point. -/
structure Bends (c : Chart α) (key : String) (index : Int) (h : Point α) (start last : Point α)
    (session : Session α) : Prop where
  ready : session.Ready
  faithful : session.Faithful
  handle? : session.handle? key index = some (h + (last - start))
  otherControl? : session.picture.chartOrEmpty.otherControl? key index = c.otherControl? key index

section Bend

variable {c : Chart α} {key : String} {index : Int} {h : Point α} {held : Pointer α} {session : Session α}

/-- At the press the control point has not moved. -/
theorem bends_start (hexact : Scalar.Exact α) (hc : session.picture = .chart c) (hfaithful : session.Faithful)
    (haccepts : session.surface.Accepts) (hh : c.handle? key index = some h) (start : Point α) :
    Bends c key index h start start session where
  ready := ⟨⟨c, hc⟩, hfaithful.sound, haccepts⟩
  faithful := hfaithful
  handle? := by
    rw [Session.handle?, hc]
    refine hh.trans (congrArg some ?_)
    exact (congrArg₂ Point.mk (hexact.add_sub_self h.x start.x) (hexact.add_sub_self h.y start.y)).symm
  otherControl? := by
    rw [hc]
    rfl

/-- The control point is set to where it is, moved by the step from the last
    point. -/
theorem dragEdgePoint_control (s : ChartStage α) (q last : Point α) {at' : Point α}
    (hat : s.picture.handle? key index = some at') :
    dragEdgePoint (.edgeControl key index) q last s =
      s.setControl key index ⟨at'.x + q.x - last.x, at'.y + q.y - last.y⟩ := by
  obtain ⟨e, he, rfl⟩ := Option.map_eq_some_iff.mp hat
  unfold dragEdgePoint
  simp only [Hit.id, Hit.control, he]
  rfl

/-- A left press on a control point of the selected edge drags it step by step,
    each time from where it then is. With exact scalars the steps add up to the
    way from the press to the last point of the pointer; rounding could add up
    along the way. -/
theorem carries_control (hexact : Scalar.ExactSteps α) (c : Chart α) (h : Point α) (hdrag : held.drag = .edgePoint)
    (hactive : held.active = .edgeControl key index) : Carries held (Bends c key index h held.pressed) := by
  intro session last q hbends
  have hdragTo : (under session held last).dragTo q =
      (under session held last).onChart (dragEdgePoint (.edgeControl key index) q last) := by
    have hpoint : (under session held last).pointer.drag = .edgePoint := hdrag
    rw [dragTo, hpoint]
    simp only [hactive]
  have hedited := edited_dragTo (under session held last) q
  have hstage := congrArg Stage.picture (stage_onChart (d := under session held last) hbends.ready
    (dragEdgePoint (.edgeControl key index) q last))
  have hat : (under session held last).stage.picture.handle? key index = some (h + (last - held.pressed)) := by
    rw [stage, Session.chartStage_picture]
    exact hbends.handle?
  rw [← hdragTo, dragEdgePoint_control _ q last hat, stage, Session.chartStage_picture] at hstage
  obtain ⟨hlinked, hcomplete⟩ := hbends.ready.sound.chartStage
  obtain ⟨hhandle, hother⟩ := setControl_controls hlinked hcomplete key index
    ⟨(h + (last - held.pressed)).x + q.x - last.x, (h + (last - held.pressed)).y + q.y - last.y⟩
  rw [← hstage] at hhandle hother
  refine ⟨dragTo_refusal hbends.ready q, hbends.ready.edited hedited, hbends.faithful.edited hedited, ?_, ?_⟩
  · -- the way to the last point and the step from it are the way to the new one
    refine hhandle.trans ((congrArg (Option.map _) hat).trans (congrArg some ?_))
    exact congrArg₂ Point.mk (hexact.add_sub_add_sub ..) (hexact.add_sub_add_sub ..)
  · rw [hother, Session.chartStage_picture]
    exact hbends.otherControl?

end Bend

end Desk

end LiveDiagram
