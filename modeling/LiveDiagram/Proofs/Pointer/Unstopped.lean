import LiveDiagram.Proofs.Pointer.GroupDrag
import LiveDiagram.Proofs.Pointer.ParticipantDrag
import LiveDiagram.Proofs.Session.Current

namespace LiveDiagram

variable {α : Type} [Scalar α]

namespace ChartStage

variable {s : ChartStage α}

/-- Turning an edge into a curve or back is not stopped on a surface that
    refuses nothing. -/
theorem toggleCurve_refusal (haccepts : s.surface.Accepts) (key : String) : (s.toggleCurve key).refusal = none := by
  unfold toggleCurve
  split
  · rfl
  split
  · rfl
  · rename_i e _ _ source target _
    let completed := s.completeShape e.edge { e.shape with curved := !e.shape.curved } source target
    have hsurface : completed.1.surface = s.surface := by
      simp only [completed, completeShape]
      split <;> rfl
    exact updateEdge_refusal (s := (completed.1.set (completed.1.picture.setEdge key
      { e with shape := completed.2 })).persistEdge e.edge completed.2) (hsurface ▸ haccepts) key

/-- Selecting an edge is not stopped on a surface that refuses nothing. -/
theorem selectEdge_refusal (haccepts : s.surface.Accepts) (key : String) : (s.selectEdge key).refusal = none := by
  have haccepts' : s.deselectEdge.state.surface.Accepts :=
    (edit_steps (P := fun _ => True) s .deselectEdge).sameSetup.accepts haccepts
  unfold selectEdge
  split
  · rfl
  rw [Outcome.andThen_of_refusal_eq_none (deselectEdge_refusal haccepts)]
  split
  · exact (markEdge_marked?
      (s := s.deselectEdge.state.set { s.deselectEdge.state.picture with selectedEdge := some key })
      haccepts' key true).1
  · rfl

/-- No edit of a chart is stopped on a surface that refuses nothing. -/
theorem edit_refusal (haccepts : s.surface.Accepts) (e : ChartEdit α) : (s.edit e).refusal = none := by
  cases e with
  | moveNode id corner => exact moveNode_refusal haccepts id corner
  | resizeNode id h step => exact resizeNode_refusal haccepts id h step
  | setSelected id selected => exact (setSelected_unstopped haccepts id selected).1
  | clearSelection => exact (clearSelection_unstopped haccepts).1
  | selectEdge key => exact selectEdge_refusal haccepts key
  | deselectEdge => exact deselectEdge_refusal haccepts
  | toggleEdge key =>
    rw [edit, toggleEdge]
    split
    · exact deselectEdge_refusal haccepts
    · exact selectEdge_refusal haccepts key
  | setAnchor key which p =>
    rw [edit, setAnchor]
    exact reshapeEdge_refusal haccepts key _
  | setControl key index p =>
    rw [edit, setControl]
    exact reshapeEdge_refusal haccepts key _
  | toggleCurve key =>
    rw [edit]
    exact toggleCurve_refusal haccepts key
  | commitNode id => exact Outcome.done_refusal _
  | notifyDependents id => exact Outcome.done_refusal _
  | normalizeLayout => exact Outcome.done_refusal _

/-- Nothing stops an edit of a chart on a surface that refuses nothing, and it
    refuses nothing afterwards. -/
theorem edit_unstopped (haccepts : s.surface.Accepts) (e : ChartEdit α) :
    (s.edit e).refusal = none ∧ (s.edit e).state.surface.Accepts :=
  ⟨edit_refusal haccepts e, (edit_steps (P := fun _ => True) s e).sameSetup.accepts haccepts⟩

end ChartStage

/-- Edits do not make a surface refuse anything. -/
theorem Session.Edited.accepts {s t : Session α} (h : Edited s t) (hs : s.surface.Accepts) : t.surface.Accepts := by
  refine h.induction (I := fun s => s.surface.Accepts) (fun s c hc hs => ?_) hs
  cases hc with
  | chart e =>
    cases hpicture : s.picture with
    | chart c =>
      rw [call, onChart_of_chart hpicture]
      exact (ChartStage.edit_unstopped (s := s.withPicture c) hs e).2
    | timeline t =>
      rw [call, onChart, hpicture]
      exact hs
  | timeline e =>
    cases hpicture : s.picture with
    | chart c =>
      rw [call, onTimeline, hpicture]
      exact hs
    | timeline t =>
      rw [call, onTimeline_of_timeline hpicture]
      exact (TimelineStage.edit_sameSetup (s.withPicture t) e).accepts hs

namespace Desk

/-- Nothing stopped the operation, and nothing will be refused after it. -/
structure Unstopped (o : Outcome (Desk α)) : Prop where
  refusal : o.refusal = none
  accepts : o.state.session.surface.Accepts

variable {d : Desk α}

omit [Scalar α] in
/-- Of two operations neither of which is stopped, the second one starts where
    the first one ends. -/
theorem Unstopped.andThen {o : Outcome (Desk α)} {f : Desk α → Outcome (Desk α)} (ho : Unstopped o)
    (hf : ∀ d : Desk α, d.session.surface.Accepts → Unstopped (f d)) : Unstopped (o.andThen f) := by
  rw [Outcome.andThen_of_refusal_eq_none ho.refusal]
  exact hf o.state ho.accepts

omit [Scalar α] in
/-- An operation that nothing stops on any chart is not stopped on the one that
    is shown, if one is. -/
theorem onChart_unstopped (hd : d.session.surface.Accepts) {f : ChartStage α → Outcome (ChartStage α)}
    (hf : ∀ s : ChartStage α, s.surface.Accepts → (f s).refusal = none ∧ (f s).state.surface.Accepts) :
    Unstopped (d.onChart f) := by
  cases hpicture : d.session.picture with
  | chart c =>
    obtain ⟨hrefusal, haccepts⟩ := hf (d.session.withPicture c) hd
    rw [onChart, onSession, Session.onChart_of_chart hpicture]
    exact ⟨hrefusal, haccepts⟩
  | timeline t =>
    rw [onChart, onSession, Session.onChart, hpicture]
    exact ⟨rfl, hd⟩

theorem editChart_unstopped (hd : d.session.surface.Accepts) (e : ChartEdit α) :
    Unstopped (d.onChart fun s => s.edit e) :=
  onChart_unstopped hd fun _ hs => ChartStage.edit_unstopped hs e

theorem selectForDrag_unstopped {s : ChartStage α} (haccepts : s.surface.Accepts) (id : String) (additive : Bool) :
    (selectForDrag id additive s).refusal = none ∧ (selectForDrag id additive s).state.surface.Accepts := by
  rw [selectForDrag]
  split
  · exact ⟨rfl, haccepts⟩
  split
  · exact ⟨rfl, haccepts⟩
  · refine Outcome.andThen_unstopped (P := fun t : ChartStage α => t.surface.Accepts)
      (Q := fun t : ChartStage α => t.surface.Accepts) ?_ fun t ht => ChartStage.setSelected_unstopped ht id true
    split
    · exact ⟨rfl, haccepts⟩
    · exact ChartStage.clearSelection_unstopped haccepts

/-- Nothing stops what a press does to the thing that it hits. -/
theorem grab_unstopped (hd : d.session.surface.Accepts) (additive : Bool) (hit : Hit) :
    Unstopped (d.grab additive hit) := by
  cases hit with
  | edgeAnchor key which => exact ⟨rfl, hd⟩
  | edgeControl key index => exact ⟨rfl, hd⟩
  | handle id h => exact ⟨rfl, hd⟩
  | edgePath key => exact editChart_unstopped hd (.toggleEdge key)
  | node id =>
    rw [grab, dragNodes]
    refine (onChart_unstopped hd fun _ hs => selectForDrag_unstopped hs id additive).andThen fun d hd => ?_
    split <;> exact ⟨rfl, hd⟩
  | participant id =>
    rw [grab, dragParticipant]
    split <;> exact ⟨rfl, hd⟩
  | nothing => exact editChart_unstopped hd .clearSelection

/-- Nothing stops a press, whatever is shown. -/
theorem press_unstopped (hd : d.session.surface.Accepts) (p : Point α) (button : Button) (additive : Bool) :
    Unstopped (d.press p button additive) := by
  cases button with
  | right =>
    rw [press]
    split
    · refine editChart_unstopped ?_ (.toggleCurve _)
      exact hd
    · exact ⟨rfl, hd⟩
  | left =>
    rw [press]
    refine Unstopped.andThen ?_ fun d hd => grab_unstopped hd additive _
    split
    · exact ⟨rfl, hd⟩
    · refine editChart_unstopped ?_ .deselectEdge
      exact hd

/-- Nothing stops the drag of a point of an edge. -/
theorem dragEdgePoint_unstopped {s : ChartStage α} (haccepts : s.surface.Accepts) (active : Hit)
    (p last : Point α) :
    (dragEdgePoint active p last s).refusal = none ∧ (dragEdgePoint active p last s).state.surface.Accepts := by
  unfold dragEdgePoint
  split
  · exact ChartStage.edit_unstopped haccepts (.setAnchor _ _ p)
  · split
    · exact ⟨rfl, haccepts⟩
    · exact ChartStage.edit_unstopped haccepts (.setControl _ _ _)

/-- Nothing stops the move of a participant. -/
theorem moveParticipant_unstopped (hd : d.session.surface.Accepts) (id : String) (x : α) :
    Unstopped (d.onSession fun s => s.onTimeline fun t => t.moveParticipant id x) := by
  cases hpicture : d.session.picture with
  | chart c =>
    rw [onSession, Session.onTimeline, hpicture]
    exact ⟨rfl, hd⟩
  | timeline t =>
    have hsetup := TimelineStage.moveParticipant_sameSetup (d.session.withPicture t) id x
    rw [onSession, Session.onTimeline_of_timeline hpicture]
    exact ⟨(TimelineStage.moveParticipant_left? (s := d.session.withPicture t) hd id x).1, hsetup.accepts hd⟩

/-- Nothing stops a drag, whatever is dragged. -/
theorem dragTo_unstopped (hd : d.session.surface.Accepts) (p : Point α) : Unstopped (d.dragTo p) := by
  rw [dragTo]
  split
  · exact ⟨rfl, hd⟩
  · refine onChart_unstopped hd fun s hs => ?_
    exact Outcome.forEach_unstopped (P := fun t : ChartStage α => t.surface.Accepts)
      (fun item _ ht => ChartStage.edit_unstopped ht (.moveNode item.1 _)) hs
  · exact editChart_unstopped hd (.resizeNode _ _ _)
  · exact onChart_unstopped hd fun _ hs => dragEdgePoint_unstopped hs _ p _
  · exact moveParticipant_unstopped hd _ _

theorem move_unstopped (hd : d.session.surface.Accepts) (p : Point α) : Unstopped (d.move p) :=
  (dragTo_unstopped hd p).andThen fun _ hd => ⟨rfl, hd⟩

theorem release_unstopped (hd : d.session.surface.Accepts) (p : Point α) (button : Button) :
    Unstopped (d.release p button) := by
  cases button with
  | right => exact ⟨rfl, hd⟩
  | left =>
    rw [release]
    refine Unstopped.andThen ?_ fun d hd => ⟨rfl, (d.edited_commitDrag p).accepts hd⟩
    split
    · exact move_unstopped hd p
    · exact ⟨rfl, hd⟩

end Desk

end LiveDiagram
