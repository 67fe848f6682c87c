import LiveDiagram.Number.Double
import LiveDiagram.Proofs.Chart.Current
import LiveDiagram.Proofs.Session.Calls
import LiveDiagram.Proofs.Timeline.Stage

namespace LiveDiagram

variable {α : Type} [Scalar α]

theorem TimelineStage.edit_sameSetup (s : TimelineStage α) (e : TimelineEdit α) :
    Stage.SameSetup s (s.edit e).state := by
  cases e with
  | moveParticipant id x => exact s.moveParticipant_sameSetup id x
  | commitParticipant id => exact s.commitParticipant_sameSetup id

/-- The call makes the surface refuse nothing, and gives no node an id with a
    colon. -/
def Call.Plain : Call α → Prop
  | .render (.flowchart d) => ∀ id ∈ d.nodeIds, ColonFree id
  | .refuse _ => False
  | _ => True

namespace Session

/-- The surface refuses nothing, and the chart, if there is one, is up to
    date. -/
structure Current (s : Session α) : Prop where
  accepts : s.surface.Accepts
  chart : ∀ c, s.picture = .chart c → ChartStage.Current (s.withPicture c)

namespace Current

variable {s : Session α}

/-- A session with a current chart is up to date. -/
theorem of_chart {t : ChartStage α} (ht : t.Current) :
    Current (t.withPicture (Picture.chart t.picture)) where
  accepts := ht.inSync.accepts
  chart c hc := by
    cases hc
    exact ht

/-- The chart that is worked on is current. If a timeline is shown, the surface
    is cleared first. -/
theorem chartStage (hs : s.Current) : s.chartStage.Current := by
  unfold Session.chartStage
  split
  · exact hs.chart _ ‹_›
  · exact ChartStage.current_empty hs.accepts rfl rfl

/-- What keeps every chart current keeps the session up to date. -/
theorem onChart (hs : s.Current) {f : ChartStage α → Outcome (ChartStage α)}
    (hf : ∀ t : ChartStage α, t.Current → (f t).state.Current) : (s.onChart f).state.Current := by
  unfold Session.onChart
  split
  · exact of_chart (hf _ (hs.chart _ ‹_›))
  · exact hs

/-- What is done to a timeline keeps the session up to date, as long as it makes
    the surface refuse nothing. -/
theorem onTimeline (hs : s.Current) {f : TimelineStage α → Outcome (TimelineStage α)}
    (hf : ∀ t : TimelineStage α, Stage.SameSetup t (f t).state) : (s.onTimeline f).state.Current := by
  unfold Session.onTimeline
  split
  · exact hs
  · rename_i t _
    exact ⟨(hf (s.withPicture t)).accepts hs.accepts, fun c hc => by cases hc⟩

/-- Every plain call keeps the session up to date. -/
theorem call (hs : s.Current) {c : Call α} (hc : c.Plain) : (s.call c).Current := by
  cases c with
  | render d =>
    cases d with
    | flowchart d =>
      have hstage := hs.chartStage
      exact of_chart (ChartStage.current_render hstage.linked hstage.inSync hc)
    | sequence d =>
      have haccepts := accepts_timelineStage hs.accepts (d.participants.map Participant.id)
      exact ⟨(TimelineStage.render_sameSetup _ d).accepts haccepts, fun c hc => by cases hc⟩
  | clear => exact of_chart (ChartStage.current_empty (s := s.clearSurface.withPicture .empty)
      hs.accepts rfl rfl)
  | updateSettings settings =>
    unfold Session.call Session.updateSettings Session.onChart
    dsimp only
    cases hpicture : s.picture with
    | chart chart => exact of_chart ((hs.chart chart hpicture).restyle settings)
    | timeline t =>
      refine ⟨hs.accepts, fun c hc => ?_⟩
      cases hc
  | editChart e => exact hs.onChart fun t ht => ht.edit e
  | editTimeline e => exact hs.onTimeline fun t => t.edit_sameSetup e
  | replaceStore store =>
    refine ⟨hs.accepts, fun chart hchart => ?_⟩
    have hbefore := hs.chart chart hchart
    exact ⟨hbefore.linked, hbefore.routed, hbefore.styled, hbefore.inSync.congr rfl rfl rfl rfl⟩
  | refuse ids => exact hc.elim

/-- At the start nothing is shown, and that is up to date. -/
theorem start (measure : Measure α) (store : Store α) : (Session.start measure store).Current where
  accepts := rfl
  chart c hc := by
    cases hc
    exact ChartStage.current_empty rfl rfl rfl

theorem run (hs : s.Current) {calls : List (Call α)} (hcalls : ∀ c ∈ calls, c.Plain) :
    (s.run calls).Current :=
  run_induction (fun c hc _ ht => ht.call (hcalls c hc)) hs

end Current

end Session

end LiveDiagram
