import LiveDiagram.Proofs.Chart.Alike
import LiveDiagram.Proofs.Session.Document
import LiveDiagram.Proofs.Timeline.Alike

namespace LiveDiagram

variable {α : Type} [Scalar α]

namespace Session

open Stage

variable {s t : Session α}

/-- Sessions that are alike work on charts that are alike. -/
theorem alike_chartStage (h : Alike s t) : Alike s.chartStage t.chartStage := by
  unfold chartStage
  rw [h.picture]
  split
  · exact h.withPicture _
  · exact h.clearSurface.withPicture _

/-- Sessions that are alike have timelines that are alike for a diagram. -/
theorem alike_timelineStage (h : Alike s t) (ids : List String) :
    Alike (s.timelineStage ids) (t.timelineStage ids) := by
  unfold timelineStage
  rw [h.picture]
  split
  · split
    · exact h.withPicture _
    · exact h.clearSurface.withPicture _
  · exact h.clearSurface.withPicture _

/-- Sessions that are alike show every diagram alike. -/
theorem alike_render (h : Alike s t) (d : Diagram) : Outcome.Alike (s.render d) (t.render d) := by
  cases d with
  | flowchart d =>
    have hrendered := ChartStage.alike_render (alike_chartStage h) d
    refine .done ?_
    unfold renderFlowchart
    dsimp only
    rw [hrendered.picture]
    exact hrendered.withPicture _
  | sequence d =>
    have hrendered := TimelineStage.alike_render (alike_timelineStage h (d.participants.map Participant.id)) d
    refine ⟨?_, hrendered.refusal⟩
    unfold render renderSequence
    rw [Outcome.map_state, Outcome.map_state, hrendered.state.picture]
    exact hrendered.state.withPicture _

/-- Sessions that are alike show every text alike and report the same of it. -/
theorem alike_renderText [YamlReader] (h : Alike s t) (text : String) :
    Alike (s.renderText text).1 (t.renderText text).1 ∧ (t.renderText text).2 = (s.renderText text).2 := by
  have hrendered := alike_render h (Diagram.ofText text)
  refine ⟨hrendered.state, ?_⟩
  unfold renderText
  dsimp only
  rw [hrendered.refusal]

/-- Cleared sessions are alike if their stores, settings and surroundings
    are. -/
theorem alike_clear (hmeasure : t.measure = s.measure) (hrefused : t.surface.refused = s.surface.refused)
    (hsettings : t.settings = s.settings) (hpositions : t.store.positions = s.store.positions) :
    Alike s.clear t.clear where
  picture := rfl
  surface := .clear hrefused
  positions := hpositions
  settings := hsettings
  measure := hmeasure

/-- New settings change neither what texts measure nor what the surface
    refuses. -/
theorem updateSettings_sameSetup (s : Session α) (settings : Settings) :
    SameSetup { s with settings } (s.updateSettings settings) := by
  unfold updateSettings onChart
  dsimp only
  split
  · rename_i c hc
    have hsteps : ChartStage.Steps (fun _ => True) (Stage.withPicture { s with settings } c)
        (ChartStage.restyle (Stage.withPicture { s with settings } c)) := ChartStage.restyle_steps _
    exact ⟨hsteps.sameSetup.settings, hsteps.sameSetup.measure, hsteps.sameSetup.refused⟩
  · exact .refl _

/-- Sessions that have opened the same document are alike, if they measure texts
    alike and refuse the same. -/
theorem alike_openDocument (hmeasure : t.measure = s.measure)
    (hrefused : t.surface.refused = s.surface.refused) (d : Document α) :
    Alike (s.openDocument d).1 (t.openDocument d).1 := by
  have hs := updateSettings_sameSetup { s with store := s.store.replace d.positions } d.settings
  have ht := updateSettings_sameSetup { t with store := t.store.replace d.positions } d.settings
  have hstore (u : Session α) :
      (updateSettings { u with store := u.store.replace d.positions } d.settings).store.positions =
        d.positions := by
    rw [(updateSettings_sameRecords _ _).store]
    exact u.store.positions_replace d.positions
  refine alike_clear ?_ ?_ ?_ ?_
  · exact ht.measure.trans (hmeasure.trans hs.measure.symm)
  · exact ht.refused.trans (hrefused.trans hs.refused.symm)
  · exact ht.settings.trans hs.settings.symm
  · exact (hstore t).trans (hstore s).symm

/-- However two sessions came about, they are alike as soon as both have
    forgotten all positions and show a text under the same settings, or have
    opened the same document and show its text. They need to measure texts alike
    and to draw on surfaces that refuse the same, nothing for example. What is
    drawn next depends on nothing else that a session could have kept. -/
theorem alike_resetPositions_openFile [YamlReader] (hmeasure : t.measure = s.measure)
    (hrefused : t.surface.refused = s.surface.refused) :
    (t.settings = s.settings → ∀ text : String,
      (t.resetPositions text).2 = (s.resetPositions text).2 ∧
        Alike (s.resetPositions text).1 (t.resetPositions text).1) ∧
    ∀ f : FileContent α, (f.value?.bind Document.ofJson?).isSome →
      ∃ d, (s.openFile f).2 = some d ∧ (t.openFile f).2 = some d ∧
        Alike ((s.openFile f).1.renderText d.text).1 ((t.openFile f).1.renderText d.text).1 := by
  refine ⟨fun hsettings text => ?_, fun f hf => ?_⟩
  · simp only [resetPositions]
    refine ⟨trivial, ?_⟩
    refine (alike_renderText (alike_clear ?_ ?_ ?_ ?_) _).1
    · exact hmeasure
    · exact hrefused
    · exact hsettings
    · exact (s.store.positions_replace {}).symm ▸ t.store.positions_replace {}
  · obtain ⟨d, hd⟩ := Option.isSome_iff_exists.mp hf
    refine ⟨(s.openDocument d).2, ?_, ?_, ?_⟩
    · rw [openFile, hd]
    · rw [openFile, hd]
      rfl
    · rw [openFile, openFile, hd]
      exact (alike_renderText (alike_openDocument hmeasure hrefused d) _).1

/-- A session that shows a participant which was moved, over a store that cannot
    be saved. -/
def participantShown : Session Float where
  picture := .timeline (Timeline.empty.setParticipant "a" { label := "A", x := 40, width := 140 })
  store :=
    { backend := .memory { failSaves := true }
      loaded := some (Positions.empty.setNode "a" ⟨40, 0, 140, 42⟩) }
  measure := fun _ => ⟨0, 0⟩

/-- A text with settings, and the settings of another block behind them. -/
def spacedText : String :=
  "---\nlayout: fixed\n---\n---\nparticipant_spacing: 300\n---\nsequence\nA->B: x"

/-- A timeline over a store that cannot be saved and a chart with an edge are
    alike once they have forgotten their pasts. -/
theorem alike_resetPositions_openFile_participantShown :
    oneEdgeShown.measure = participantShown.measure ∧
      Alike (participantShown.resetPositions spacedText).1 (oneEdgeShown.resetPositions spacedText).1 ∧
      ∃ d, (participantShown.openFile (.json (placedNode.document placedText).toJson)).2 = some d ∧
        Alike ((participantShown.openFile (.json (placedNode.document placedText).toJson)).1.renderText d.text).1
          ((oneEdgeShown.openFile (.json (placedNode.document placedText).toJson)).1.renderText d.text).1 := by
  obtain ⟨s, hs⟩ : ∃ s : ChartStage Float, s = (start (fun _ => ⟨0, 0⟩) default).chartStage := ⟨_, rfl⟩
  have hsetup := s.render_sameSetup oneEdge
  have hshown : oneEdgeShown = (s.render oneEdge).withPicture (.chart (s.render oneEdge).picture) := by
    rw [hs]
    rfl
  have hmeasure : oneEdgeShown.measure = participantShown.measure := by
    rw [hshown]
    exact hsetup.measure.trans (hs ▸ rfl)
  have hrefused : oneEdgeShown.surface.refused = participantShown.surface.refused := by
    rw [hshown]
    exact hsetup.refused.trans (hs ▸ rfl)
  have hsettings : oneEdgeShown.settings = participantShown.settings := by
    rw [hshown]
    exact hsetup.settings.trans (hs ▸ rfl)
  obtain ⟨hreset, hopen⟩ := alike_resetPositions_openFile hmeasure hrefused
  obtain ⟨d, hd, -, halike⟩ := hopen (.json (placedNode.document placedText).toJson) rfl
  exact ⟨hmeasure, (hreset hsettings spacedText).2, d, hd, halike⟩

end Session

end LiveDiagram
