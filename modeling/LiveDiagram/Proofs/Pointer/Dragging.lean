import LiveDiagram.Proofs.Chart.Rects
import LiveDiagram.Proofs.Number.Exact
import LiveDiagram.Proofs.Pointer.Events

namespace LiveDiagram

variable {α : Type}

namespace Drag

/-- Where the corner of a node was when the drag began, if that node is dragged.
    Of several entries for one node the last one counts, as it is the last one
    that moves the node. -/
def start? (drag : Drag α) (id : String) : Option (Point α) :=
  match drag with
  | .nodes starts => (starts.reverse.find? fun x => x.1 == id).map Prod.snd
  | _ => none

/-- The rectangle of a node with the corner that it had when the drag began. -/
def undo (drag : Drag α) (id : String) (r : Rect α) : Rect α :=
  (drag.start? id).elim r r.at

theorem mem_of_start? {starts : List (String × Point α)} {id : String} {corner : Point α}
    (h : (Drag.nodes starts).start? id = some corner) : (id, corner) ∈ starts := by
  obtain ⟨⟨other, corner'⟩, hfound, rfl⟩ := Option.map_eq_some_iff.mp h
  have hid : other = id := by simpa using List.find?_some hfound
  exact hid ▸ List.mem_reverse.mp (List.mem_of_find?_eq_some hfound)

/-- A node that is not among those dragged has no start. -/
theorem start?_eq_none {starts : List (String × Point α)} {id : String} :
    (Drag.nodes starts).start? id = none ↔ id ∉ starts.map Prod.fst := by
  rw [start?, Option.map_eq_none_iff, List.find?_eq_none, List.mem_map]
  constructor
  · rintro hnone ⟨x, hx, rfl⟩
    exact hnone x (List.mem_reverse.mpr hx) (beq_self_eq_true x.1)
  · intro hnone x hx heq
    exact hnone ⟨x, List.mem_reverse.mp hx, eq_of_beq heq⟩

end Drag

namespace Session

/-- The rectangle of the node with that id on the chart that is shown. -/
def rect? (s : Session α) (id : String) : Option (Rect α) :=
  s.picture.chartOrEmpty.rect? id

theorem chartStage_picture (s : Session α) : s.chartStage.picture = s.picture.chartOrEmpty := by
  unfold chartStage
  split
  · rename_i c hc
    rw [hc]
    rfl
  · rename_i t ht
    rw [ht]
    rfl

/-- The chart that is worked on is the one that is shown. -/
theorem chartStage_rect? (s : Session α) : s.chartStage.picture.rect? = s.rect? := by
  rw [chartStage_picture]
  rfl

/-- What is done on the chart that is shown is done to the chart that is worked
    on. -/
theorem chartStage_onChart {s : Session α} (hs : ∃ c, s.picture = .chart c)
    (f : ChartStage α → Outcome (ChartStage α)) :
    (s.onChart f).state.chartStage = (f s.chartStage).state ∧
      (s.onChart f).refusal = (f s.chartStage).refusal := by
  obtain ⟨c, hc⟩ := hs
  have hstage : s.chartStage = s.withPicture c := by rw [chartStage, hc]
  rw [onChart_of_chart hc, hstage]
  exact ⟨rfl, rfl⟩

/-- A session that shows a chart, on a surface that refuses nothing. -/
structure Ready (s : Session α) : Prop where
  chart : ∃ c, s.picture = .chart c
  sound : s.Sound
  accepts : s.surface.Accepts

/-- A session that shows a chart has no timeline to do something on. -/
theorem Ready.onTimeline {s : Session α} (hs : s.Ready) (f : TimelineStage α → Outcome (TimelineStage α)) :
    s.onTimeline f = .done s := by
  obtain ⟨chart, hchart⟩ := hs.chart
  rw [Session.onTimeline, hchart]

end Session

namespace Desk

/-- The chart that is worked on. -/
abbrev stage (d : Desk α) : ChartStage α :=
  d.session.chartStage

/-- No node of the chart is away from where it was when the drag began. -/
def AtStart (d : Desk α) : Prop :=
  ∀ id r, d.session.rect? id = some r → d.pointer.drag.undo id r = r

variable {d : Desk α}

theorem atStart_of_nothing (hd : d.pointer.drag = .nothing) : d.AtStart := by
  intro id r _
  rw [hd]
  rfl

theorem map_fst_selectedCorners (c : Chart α) : (selectedCorners c).map Prod.fst = c.selectedNodes := by
  rw [selectedCorners, Chart.selectedNodes, List.map_map]
  rfl

/-- A drag starts where the selected nodes are. -/
theorem start?_selectedCorners (c : Chart α) (id : String) :
    (Drag.nodes (selectedCorners c)).start? id =
      if id ∈ c.selectedNodes then (c.rect? id).map fun r => ⟨r.x, r.y⟩ else none := by
  have hids := map_fst_selectedCorners c
  cases hstart : (Drag.nodes (selectedCorners c)).start? id with
  | none =>
    rw [Drag.start?_eq_none, hids] at hstart
    rw [if_neg hstart]
  | some corner =>
    obtain ⟨⟨other, n⟩, hmem, heq⟩ := List.mem_map.mp (Drag.mem_of_start? hstart)
    obtain ⟨rfl, rfl⟩ := Prod.mk.inj heq
    obtain ⟨hmem, hselected⟩ := List.mem_filter.mp hmem
    have hn := Std.ExtTreeMap.mem_toList_iff_getElem?_eq_some.mp hmem
    rw [if_pos (Chart.mem_selectedNodes.mpr ⟨n, hn, hselected⟩), Chart.rect?, hn]
    rfl

/-- The corner at which a selected node starts to be dragged is that of its
    rectangle. -/
theorem undo_selectedCorners {c : Chart α} {id : String} {r : Rect α} (hr : c.rect? id = some r) :
    (Drag.nodes (selectedCorners c)).undo id r = r := by
  rw [Drag.undo, start?_selectedCorners, hr]
  split <;> rfl

/-- What is done on the chart of a desk is done to the chart that is worked
    on. -/
theorem stage_onChart (hd : d.session.Ready) (f : ChartStage α → Outcome (ChartStage α)) :
    (d.onChart f).state.stage = (f d.stage).state :=
  (Session.chartStage_onChart hd.chart f).1

theorem onChart_refusal (hd : d.session.Ready) (f : ChartStage α → Outcome (ChartStage α)) :
    (d.onChart f).refusal = (f d.stage).refusal :=
  (Session.chartStage_onChart hd.chart f).2

end Desk

variable [Scalar α]

theorem Point.same_iff (hexact : Scalar.Exact α) {p q : Point α} : p.same q = true ↔ p = q := by
  rw [same, Bool.and_eq_true, hexact.beq_iff, hexact.beq_iff, Point.mk.injEq]

namespace ChartStage

/-- All nodes stand where they stood, and the same is recorded of them. -/
structure KeepsNodes (s t : ChartStage α) : Prop where
  rect? : t.picture.rect? = s.picture.rect?
  node? : t.store.node? = s.store.node?

namespace KeepsNodes

variable {s t u : ChartStage α}

theorem refl (s : ChartStage α) : KeepsNodes s s :=
  ⟨rfl, rfl⟩

theorem trans (h : KeepsNodes s t) (h' : KeepsNodes t u) : KeepsNodes s u :=
  ⟨h'.rect?.trans h.rect?, h'.node?.trans h.node?⟩

theorem of_quiet (h : Quiet s t) (hrect : t.picture.rect? = s.picture.rect?) : KeepsNodes s t :=
  ⟨hrect, by rw [h.store]⟩

theorem of_reshapes {key : String} (h : Reshapes key s t) (hrect : t.picture.rect? = s.picture.rect?) :
    KeepsNodes s t :=
  ⟨hrect, funext h.node?⟩

end KeepsNodes

section Edits

variable (s : ChartStage α)

theorem clearSelection_keepsNodes : KeepsNodes s s.clearSelection.state :=
  .of_quiet s.clearSelection_quiet s.clearSelection_rect?

theorem deselectEdge_keepsNodes : KeepsNodes s s.deselectEdge.state :=
  .of_quiet s.deselectEdge_quiet s.deselectEdge_rect?

theorem toggleEdge_keepsNodes (key : String) : KeepsNodes s (s.toggleEdge key).state :=
  .of_quiet (s.toggleEdge_quiet key) (s.toggleEdge_rect? key)

end Edits

end ChartStage

/-- Where nothing is selected, a point on a node hits that node. Otherwise a
    point of the selected edge or a handle of a selected node could lie on
    top. -/
theorem Chart.hit_of_hitNode {c : Chart α} {p : Point α} {h : Hit} (hedge : c.selectedEdge = none)
    (hselected : ∀ n ∈ c.nodes.toList, n.2.selected = false) (hnode : c.hitNode p = some h) : c.hit p = h := by
  have hhandle : c.hitHandle p = none := by
    rw [hitHandle, List.filter_eq_nil_iff.mpr]
    · rfl
    · intro n hn
      rw [hselected n hn]
      exact Bool.false_ne_true
  rw [hit, hitSelectedEdge, hedge, hhandle, hnode]
  rfl

namespace Desk

section Chart

variable (s : ChartStage α)

open ChartStage

/-- Selecting a node to drag it is quiet and moves no node. -/
theorem selectForDrag_quiet (id : String) (additive : Bool) :
    Quiet s (selectForDrag id additive s).state ∧
      (selectForDrag id additive s).state.picture.rect? = s.picture.rect? := by
  rw [selectForDrag]
  split
  · exact ⟨.refl s, rfl⟩
  · split
    · exact ⟨.refl s, rfl⟩
    · refine Outcome.andThen_state (P := fun t => Quiet s t ∧ t.picture.rect? = s.picture.rect?) ?_ fun t ht =>
        ⟨ht.1.trans (t.setSelected_quiet id true), (t.setSelected_rect? id true).trans ht.2⟩
      split
      · exact ⟨.refl s, rfl⟩
      · exact ⟨s.clearSelection_quiet, s.clearSelection_rect?⟩

theorem selectForDrag_keepsNodes (id : String) (additive : Bool) :
    KeepsNodes s (selectForDrag id additive s).state :=
  .of_quiet (selectForDrag_quiet s id additive).1 (selectForDrag_quiet s id additive).2

theorem dragEdgePoint_keepsNodes {s : ChartStage α} (hs : s.picture.Linked) (active : Hit) (p last : Point α) :
    KeepsNodes s (dragEdgePoint active p last s).state := by
  unfold dragEdgePoint
  split
  · exact .of_reshapes (setAnchor_reshapes hs _ _ p) (s.setAnchor_rect? _ _ p)
  · split
    · exact .refl s
    · exact .of_reshapes (setControl_reshapes hs _ _ _) (s.setControl_rect? _ _ _)

/-- Dragging a point of an edge is not stopped on a surface that refuses
    nothing. -/
theorem dragEdgePoint_refusal {s : ChartStage α} (haccepts : s.surface.Accepts) (active : Hit) (p last : Point α) :
    (dragEdgePoint active p last s).refusal = none := by
  unfold dragEdgePoint
  split
  · exact reshapeEdge_refusal haccepts _ _
  · split
    · rfl
    · exact reshapeEdge_refusal haccepts _ _

end Chart

end Desk

namespace Session

/-- A session that shows a chart is ready for the pointer after any edits, since
    edits of a chart leave a chart and make the surface refuse nothing. -/
theorem Ready.edited {s t : Session α} (h : Edited s t) (hs : s.Ready) : t.Ready := by
  refine h.induction (fun u c hc hu => ?_) hs
  obtain ⟨chart, hchart⟩ := hu.chart
  cases hc with
  | chart e =>
    refine ⟨?_, hu.sound.call _, ?_⟩ <;> rw [call, onChart_of_chart hchart]
    · exact ⟨_, rfl⟩
    · have hsteps := ChartStage.edit_steps (P := fun _ => True) (u.withPicture chart) e
      exact hsteps.sameSetup.accepts hu.accepts
  | timeline e =>
    have hsame : u.call (.editTimeline e) = u := by rw [call, hu.onTimeline, Outcome.done_state]
    rw [hsame]
    exact hu

end Session

namespace Desk

open ChartStage

variable {d : Desk α}

/-- What keeps the nodes of every chart keeps those of the chart that is worked
    on. -/
theorem onChart_keepsNodes (hd : d.session.Ready) {f : ChartStage α → Outcome (ChartStage α)}
    (hf : ∀ t : ChartStage α, t.picture.Linked → KeepsNodes t (f t).state) :
    KeepsNodes d.stage (d.onChart f).state.stage := by
  rw [stage_onChart hd]
  exact hf d.stage hd.sound.chartStage.1

/-- A press of the right button changes neither nodes nor the drag. From then on
    the pointer counts as pressed there, also in the middle of a drag with the
    left button. -/
theorem press_right (hd : d.session.Ready) (p : Point α) (additive : Bool) :
    KeepsNodes d.stage (d.press p .right additive).state.stage ∧
      (d.press p .right additive).state.pointer = { d.pointer with pressed := p, last := p } := by
  rw [press]
  split
  · refine ⟨onChart_keepsNodes (d := { d with pointer := _ }) hd fun t ht => ?_, rfl⟩
    exact .of_reshapes (toggleCurve_reshapes ht _) (t.toggleCurve_rect? _)
  · exact ⟨.refl _, rfl⟩

/-- Whether nodes are away from the start of a drag depends on the nodes and the
    drag. -/
theorem atStart_iff {e : Desk α} (hkeeps : KeepsNodes d.stage e.stage) (hdrag : e.pointer.drag = d.pointer.drag) :
    e.AtStart ↔ d.AtStart := by
  have hrect : e.session.rect? = d.session.rect? := by
    rw [← Session.chartStage_rect?, hkeeps.rect?, Session.chartStage_rect?]
  rw [AtStart, AtStart, hrect, hdrag]

/-- Beginning to drag nodes moves none, and they start where they are. -/
theorem dragNodes_atStart (hd : d.session.Ready) (hidle : d.pointer.drag = .nothing) (id : String)
    (additive : Bool) :
    KeepsNodes d.stage (d.dragNodes id additive).state.stage ∧ (d.dragNodes id additive).state.AtStart := by
  have hselect := onChart_keepsNodes hd fun t _ => selectForDrag_keepsNodes t id additive
  refine Outcome.andThen_state (P := fun e : Desk α => KeepsNodes d.stage e.stage ∧ e.AtStart)
    ⟨hselect, atStart_of_nothing hidle⟩ fun e he => ?_
  split
  · rename_i c hc
    refine ⟨he.1, fun other r hr => undo_selectedCorners (c := c) ?_⟩
    simpa only [Session.rect?, Outcome.done_state, withDrag, hc, Picture.chartOrEmpty] using hr
  · exact he

/-- Whatever is hit, a press on it moves no node. The pointer must be idle, as a
    press on an edge or on nothing leaves alone what is dragged. -/
theorem grab_atStart (hd : d.session.Ready) (hidle : d.pointer.drag = .nothing) (additive : Bool) (hit : Hit) :
    KeepsNodes d.stage (d.grab additive hit).state.stage ∧ (d.grab additive hit).state.AtStart := by
  cases hit with
  | edgeAnchor key which => exact ⟨.refl _, fun _ _ _ => rfl⟩
  | edgeControl key index => exact ⟨.refl _, fun _ _ _ => rfl⟩
  | edgePath key =>
    exact ⟨onChart_keepsNodes hd fun t _ => t.toggleEdge_keepsNodes key, atStart_of_nothing hidle⟩
  | handle id h => exact ⟨.refl _, fun _ _ _ => rfl⟩
  | node id => exact dragNodes_atStart hd hidle id additive
  | participant id =>
    rw [grab, dragParticipant]
    split
    · exact ⟨.refl _, fun _ _ _ => rfl⟩
    · exact ⟨.refl _, atStart_of_nothing hidle⟩
  | nothing => exact ⟨onChart_keepsNodes hd fun t _ => t.clearSelection_keepsNodes, atStart_of_nothing hidle⟩

/-- A press of the left button changes no nodes either. The drag that it may
    begin begins where they are. -/
theorem press_left (hd : d.session.Ready) (hidle : d.pointer.drag = .nothing) (p : Point α) (additive : Bool) :
    KeepsNodes d.stage (d.press p .left additive).state.stage ∧ (d.press p .left additive).state.AtStart := by
  let pressed : Desk α :=
    { d with pointer := { d.pointer with pressed := p, last := p, active := d.session.hit p } }
  let o := if (d.session.hit p).isEdge then Outcome.done pressed else pressed.onChart ChartStage.deselectEdge
  have hpress : d.press p .left additive = o.andThen fun e => e.grab additive (d.session.hit p) := rfl
  have ho : KeepsNodes d.stage o.state.stage ∧ o.state.session.Ready ∧ o.state.pointer.drag = .nothing := by
    simp only [o]
    split
    · exact ⟨.refl _, hd, hidle⟩
    · have hedited := pressed.edited_onChart fun t => t.edited_edit .deselectEdge
      exact ⟨onChart_keepsNodes (d := pressed) hd fun t _ => t.deselectEdge_keepsNodes,
        Session.Ready.edited hedited hd, hidle⟩
  obtain ⟨hkeeps, hready, hdrag⟩ := ho
  rw [hpress, Outcome.andThen]
  split
  · obtain ⟨hgrab, hatStart⟩ := grab_atStart hready hdrag additive (d.session.hit p)
    exact ⟨hkeeps.trans hgrab, hatStart⟩
  · exact ⟨hkeeps, atStart_of_nothing hdrag⟩

/-- Where a corner goes that is dragged when the pointer goes to a point. -/
def dragged (d : Desk α) (p corner : Point α) : Point α :=
  ⟨corner.x + (p - d.pointer.pressed).x, corner.y + (p - d.pointer.pressed).y⟩

/-- Dragging nodes moves each of them to where its own corner goes, from where
    it was at the start. -/
theorem dragTo_of_nodes {starts : List (String × Point α)} (hdrag : d.pointer.drag = .nodes starts)
    (p : Point α) :
    d.dragTo p = d.onChart (Outcome.forEach starts fun x t => moveNode t x.1 (d.dragged p x.2)) := by
  rw [dragTo, hdrag]
  rfl

/-- Nothing stops a drag on a surface that refuses nothing. -/
theorem dragTo_refusal (hd : d.session.Ready) (p : Point α) : (d.dragTo p).refusal = none := by
  have haccepts := Session.accepts_chartStage hd.accepts
  cases hdrag : d.pointer.drag with
  | nothing =>
    rw [dragTo, hdrag]
    rfl
  | nodes starts =>
    rw [dragTo_of_nodes hdrag, onChart_refusal hd]
    exact (forEach_moveNode hd.sound.chartStage haccepts starts (d.dragged p)).1
  | handle =>
    rw [dragTo, hdrag]
    exact (onChart_refusal hd _).trans (resizeNode_refusal haccepts _ _ _)
  | edgePoint =>
    rw [dragTo, hdrag]
    exact (onChart_refusal hd _).trans (dragEdgePoint_refusal haccepts _ _ _)
  | participant startX =>
    rw [dragTo, hdrag]
    dsimp only
    rw [onSession, hd.onTimeline]
    rfl

/-- A drag leaves the pointer as it is; it is the move that changes its last
    point afterwards. -/
theorem dragTo_pointer (d : Desk α) (p : Point α) : (d.dragTo p).state.pointer = d.pointer := by
  rw [dragTo]
  split <;> rfl

theorem move_of_unstopped {p : Point α} (hp : (d.dragTo p).refusal = none) :
    d.move p = .done { session := (d.dragTo p).state.session, pointer := { d.pointer with last := p } } := by
  rw [move, Outcome.andThen_of_refusal_eq_none hp, dragTo_pointer]

/-- On a surface that refuses nothing every move takes the pointer along. -/
theorem move_eq (hd : d.session.Ready) (p : Point α) :
    d.move p = .done { session := (d.dragTo p).state.session, pointer := { d.pointer with last := p } } :=
  move_of_unstopped (dragTo_refusal hd p)

end Desk

end LiveDiagram
