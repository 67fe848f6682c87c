import LiveDiagram.Proofs.Pointer.Events

namespace LiveDiagram

variable {α : Type} [Scalar α]

namespace Session

/-- The chart of the session, if there is one, is linked and complete, and its
    edges have their recorded shapes. -/
structure Faithful (s : Session α) : Prop where
  sound : s.Sound
  recorded : ∀ c, s.picture = .chart c → ChartStage.Recorded (s.withPicture c)

namespace Faithful

variable {s : Session α}

/-- A session that shows nothing is faithful, over whatever store. -/
theorem of_empty (hs : s.picture = .chart .empty) : s.Faithful where
  sound c hc := by
    obtain rfl := Picture.chart.inj (hs.symm.trans hc)
    exact Chart.linked_complete_empty
  recorded c hc := by
    obtain rfl := Picture.chart.inj (hs.symm.trans hc)
    exact ChartStage.recorded_of_empty rfl

theorem of_timeline {t : Timeline α} (ht : s.picture = .timeline t) : s.Faithful where
  sound c hc := by simp [ht] at hc
  recorded c hc := by simp [ht] at hc

/-- Another session with the same picture is faithful too, over a store that
    records the same of edges. -/
theorem congr {t : Session α} (hs : s.Faithful) (hpicture : t.picture = s.picture)
    (hedge : s.store.loaded.isSome → ∀ key, t.store.edge? key = s.store.edge? key)
    (hloaded : s.store.loaded.isSome → t.store.loaded.isSome) : t.Faithful where
  sound c hc := hs.sound c (hpicture ▸ hc)
  recorded c hc key shape hshape := by
    obtain ⟨hload, hrecord⟩ := hs.recorded c (hpicture ▸ hc) key shape hshape
    exact ⟨hloaded hload, hedge hload key ▸ hrecord⟩

/-- What keeps the shapes recorded on every sound chart keeps a session
    faithful. -/
theorem onChart (hs : s.Faithful) {f : ChartStage α → Outcome (ChartStage α)}
    (hsound : (s.onChart f).state.Sound)
    (hf : ∀ t : ChartStage α, t.picture.Linked → t.picture.Complete → t.Recorded → (f t).state.Recorded) :
    (s.onChart f).state.Faithful := by
  refine ⟨hsound, fun c hc => ?_⟩
  cases hpicture : s.picture with
  | timeline t =>
    rw [Session.onChart, hpicture] at hc ⊢
    exact hs.recorded c hc
  | chart before =>
    obtain ⟨hlinked, hcomplete⟩ := hs.sound before hpicture
    have hrecorded := hf (s.withPicture before) hlinked hcomplete (hs.recorded before hpicture)
    rw [onChart_of_chart hpicture] at hc ⊢
    obtain rfl := Picture.chart.inj hc
    exact hrecorded

/-- The chart that is worked on has its shapes recorded. -/
theorem chartStage (hs : s.Faithful) : s.chartStage.Recorded := by
  rw [Session.chartStage]
  split
  · rename_i c hc
    exact hs.recorded c hc
  · exact ChartStage.recorded_of_empty rfl

/-- Drawing a flowchart keeps a session faithful, also one that shows a
    timeline. -/
theorem renderFlowchart (hs : s.Faithful) (d : Flowchart) : (s.renderFlowchart d).Faithful where
  sound := hs.sound.renderFlowchart d
  recorded c hc := by
    have hrendered := hs.chartStage.render d hs.sound.chartStage.2
    obtain rfl := Picture.chart.inj hc
    exact hrendered

/-- Rendering a diagram keeps a session faithful, also one that the surface
    stops. -/
theorem render (hs : s.Faithful) (d : Diagram) : (s.render d).state.Faithful := by
  cases d with
  | flowchart d => exact hs.renderFlowchart d
  | sequence d => exact of_timeline rfl

theorem renderText [YamlReader] (hs : s.Faithful) (text : String) : (s.renderText text).1.Faithful :=
  hs.render (Diagram.ofText text)

theorem clear (s : Session α) : s.clear.Faithful :=
  of_empty rfl

/-- Forgetting the positions leaves a faithful session. The edges that are drawn
    again have their plain shapes. -/
theorem resetPositions [YamlReader] (s : Session α) (text : String) : (s.resetPositions text).1.Faithful := by
  simp only [Session.resetPositions]
  exact (clear _).renderText _

theorem updateSettings (hs : s.Faithful) (settings : Settings) : (s.updateSettings settings).Faithful := by
  have hsettings : Faithful { s with settings } := hs.congr rfl (fun _ _ => rfl) id
  refine hsettings.onChart ?_ fun t _ _ ht => ht.quiet t.restyle_quiet
  exact hsettings.sound.onChart fun t => t.restyle_steps

theorem edit (hs : s.Faithful) {c : Call α} (hc : c.IsEdit) : (s.call c).Faithful := by
  cases hc with
  | chart e =>
    exact hs.onChart (hs.sound.call (.editChart e)) fun t hlinked hcomplete ht =>
      ht.edit hlinked hcomplete e
  | timeline e =>
    cases hpicture : s.picture with
    | chart c =>
      have hsame : s.call (.editTimeline e) = s := by rw [call, onTimeline, hpicture, Outcome.done_state]
      rw [hsame]
      exact hs
    | timeline t =>
      rw [call, onTimeline_of_timeline hpicture]
      exact of_timeline rfl

theorem edited {t : Session α} (hs : s.Faithful) (h : Edited s t) : t.Faithful :=
  h.induction (fun _ _ hc hu => hu.edit hc) hs

/-- Where a store saves does not matter once it is loaded, and an edge is drawn
    only after that. -/
theorem withBackend (hs : s.Faithful) (backend : Backend α) :
    Faithful { s with store := { s.store with backend } } := by
  refine hs.congr rfl (fun hloaded key => ?_) id
  have hsame : ({ s.store with backend } : Store α).positions = s.store.positions := by
    rw [Store.positions_of_loaded hloaded, Store.positions_of_loaded (s := { s.store with backend }) hloaded]
  rw [Store.edge?, hsame, Store.edge?]

/-- Saving a document keeps a session faithful. It loads the store and reads
    it. -/
theorem saveFile (hs : s.Faithful) (text : String) (f : File α) : (s.saveFile text f).1.Faithful :=
  hs.congr rfl (fun _ key => s.store.edge?_load key) fun _ => s.store.loaded_load

/-- Opening a document leaves a faithful session, whether or not it can be
    read. -/
theorem openFile (hs : s.Faithful) (f : FileContent α) : (s.openFile f).1.Faithful := by
  rw [Session.openFile]
  split
  · exact of_empty rfl
  · exact hs

end Faithful

/-- The edges on the chart, with what the store records under their keys. -/
structure ShapesRecorded (s : Session α) : Prop where
  keyed : ∀ (key : String) (e : EdgeItem α), s.picture.chartOrEmpty.edges[key]? = some e → e.edge.key = key
  /-- The shape of an edge is the recorded one, or the plain one if there is no
      record. -/
  shape : ∀ (key : String) (e : EdgeItem α), s.picture.chartOrEmpty.edges[key]? = some e →
    e.shape = (s.store.edge? key).getD {}
  /-- A curve has both control points. -/
  controls : ∀ (key : String) (e : EdgeItem α), s.picture.chartOrEmpty.edges[key]? = some e →
    e.shape.curved → e.shape.control1.isSome ∧ e.shape.control2.isSome

/-- In a faithful session, what the store records under the key of an edge is
    the shape of that edge. This is the same fact without the invariants that
    carry it. -/
theorem Faithful.shapesRecorded {s : Session α} (hs : s.Faithful) : s.ShapesRecorded := by
  cases hpicture : s.picture with
  | timeline t =>
    have hnone : ∀ key : String, s.picture.chartOrEmpty.edges[key]? = none := by
      simp [hpicture, Picture.chartOrEmpty, Chart.empty]
    exact ⟨fun key e he => by simp [hnone] at he, fun key e he => by simp [hnone] at he,
      fun key e he => by simp [hnone] at he⟩
  | chart c =>
    obtain ⟨hlinked, hcomplete⟩ := hs.sound c hpicture
    have hrecorded := hs.recorded c hpicture
    have hchart : s.picture.chartOrEmpty = c := by rw [hpicture, Picture.chartOrEmpty]
    refine ⟨fun key e he => ?_, fun key e he => ?_, fun key e he hcurved => ?_⟩
    · rw [hchart] at he
      exact hlinked.keyed he
    · rw [hchart] at he
      have hshape : ChartStage.shape? (s.withPicture c) key = some e.shape := ChartStage.shape?_of_getElem? he
      exact (hrecorded key e.shape hshape).2.symm
    · rw [hchart] at he
      exact EdgeShape.controls_of_curved (hcomplete key e he) hcurved

end Session

namespace Desk

/-- Every event keeps the shapes on the chart and in the store together. -/
theorem faithful_event [YamlReader] {d : Desk α} (hd : d.session.Faithful) (e : Event α) :
    (d.event e).session.Faithful := by
  cases e <;> simp only [event]
  case renderText text => exact hd.renderText text
  case render diagram => exact hd.render diagram
  case resetPositions text => exact Session.Faithful.resetPositions d.session text
  case openFile f => exact hd.openFile f
  case saveFile text f => exact hd.saveFile text f
  case clear => exact Session.Faithful.clear d.session
  case updateSettings settings => exact hd.updateSettings settings
  case editChart e => exact hd.edit (.chart e)
  case editTimeline e => exact hd.edit (.timeline e)
  case press p button additive => exact hd.edited (d.edited_press p button additive)
  case move p => exact hd.edited (d.edited_move p)
  case release p button => exact hd.edited (d.edited_release p button)
  case refuse ids => exact hd.congr rfl (fun _ _ => rfl) id
  case backend b => exact hd.withBackend b

/-- Every sequence of events keeps the shapes on the chart and in the store
    together. -/
theorem faithful_events [YamlReader] {d : Desk α} (hd : d.session.Faithful) (es : List (Event α)) :
    (d.events es).session.Faithful := by
  rw [events]
  induction es generalizing d with
  | nil => exact hd
  | cons e es ih => exact ih (faithful_event hd e)

/-- Whatever happens from the start, over whatever store, the edges on the chart
    are as the store records them, and every curve has its control points.
    Refusals of the surface and failures to load or save do not part the two. -/
theorem shapesRecorded_events [YamlReader] (measure : Measure α) (store : Store α) (es : List (Event α)) :
    ((Desk.start (Session.start measure store)).events es).session.ShapesRecorded :=
  (faithful_events (.of_empty rfl) es).shapesRecorded

end Desk

end LiveDiagram
