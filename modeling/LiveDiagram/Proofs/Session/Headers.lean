import LiveDiagram.Proofs.Number.Exact
import LiveDiagram.Proofs.Session.Failure
import LiveDiagram.Proofs.Session.Writes
import LiveDiagram.Proofs.Timeline.Writes

namespace LiveDiagram

variable {α : Type} [Scalar α]

namespace Rect

/-- The rectangle of a header with that left side and that width. One that is so
    already is the same. -/
def headed (r : Rect α) : Rect α :=
  TimelineStage.recordOver ⟨r.x, 0, r.width, Layout.participantHeight⟩ (some r)

/-- A header is at the top and as high as all headers, or compares equal to one
    that is. -/
theorem headed_cases (r : Rect α) :
    r.headed = r ∨ r.headed = ⟨r.x, 0, r.width, Layout.participantHeight⟩ := by
  unfold headed TimelineStage.recordOver
  exact ite_eq_or_eq _ _ _

@[simp] theorem headed_x (r : Rect α) : r.headed.x = r.x := by
  rcases r.headed_cases with h | h <;> rw [h]

@[simp] theorem headed_width (r : Rect α) : r.headed.width = r.width := by
  rcases r.headed_cases with h | h <;> rw [h]

@[simp] theorem headed_headed (r : Rect α) : r.headed.headed = r.headed := by
  rcases r.headed_cases with h | h
  · rw [h, h]
  · rw [h]
    exact (headed_cases _).elim id id

end Rect

/-- A participant that was placed by its record is recorded as the header of
    that record. A record without a width would not be taken. -/
theorem recordOver_placedBare {store : Store α} {spec : Participant} {r : Rect α}
    (hr : store.node? spec.id = some r) (hwidth : 0 < r.width) (spacing : α) (index : Nat) :
    TimelineStage.recordOver (placedBare store spacing spec index).header (some r) = r.headed := by
  have hheader : (placedBare store spacing spec index).header =
      ⟨r.x, 0, r.width, Layout.participantHeight⟩ := by
    simp only [placedBare, ParticipantItem.header, hr, Option.map_some, Option.getD_some, if_pos hwidth]
  rw [hheader, Rect.headed]

/-- Showing the diagram on a surface that refuses these ids records a
    participant with that id. -/
def Diagram.Records (refused : List String) (id : String) : Diagram → Prop
  | .flowchart _ => False
  | .sequence d => id ∈ d.participantIds ∧ ¬ (d.title ≠ "" ∧ Part.title.id ∈ refused)

instance (refused : List String) (id : String) (d : Diagram) : Decidable (d.Records refused id) := by
  cases d with
  | flowchart _ => exact .isFalse fun h => h
  | sequence d => exact inferInstanceAs (Decidable (_ ∧ _))

namespace Session

variable {s : Session α}

/-- Rendering a diagram changes nothing of what the surface refuses. -/
theorem render_refused (s : Session α) (d : Diagram) :
    (s.render d).state.surface.refused = s.surface.refused := by
  cases d with
  | flowchart d =>
    have hstage : s.chartStage.surface.refused = s.surface.refused := by
      unfold chartStage
      split <;> rfl
    exact (s.chartStage.render_sameSetup d).refused.trans hstage
  | sequence d =>
    let stage : TimelineStage α := s.timelineStage (d.participants.map Participant.id)
    exact (stage.render_sameSetup d).refused.trans (timelineStage_refused s _)

/-- Showing a diagram leaves a record alone, or turns it into a header. Nodes
    and participants share the records, so the record of a node becomes that of
    a participant with its id. -/
theorem Sound.render_node? (hs : s.Sound) (d : Diagram) {id : String} {r : Rect α}
    (hr : s.store.node? id = some r) (hwidth : 0 < r.width) :
    (s.render d).state.store.node? id =
      some (if d.Records s.surface.refused id then r.headed else r) := by
  cases d with
  | flowchart d =>
    have hnode := (hs.renderFlowchart_completes d).1.node? id
    rw [if_neg (show ¬ (Diagram.flowchart d).Records s.surface.refused id from fun h => h), ← hr]
    exact hnode
  | sequence d =>
    let stage : TimelineStage α := s.timelineStage (d.participants.map Participant.id)
    have hstage : stage.store = s.store := timelineStage_store s _
    have hrecord : stage.store.node? id = some r := by rw [hstage, hr]
    have hrefuses := refusesTitle_timelineStage s d
    show (stage.render d).state.store.node? id = _
    by_cases h : stage.RefusesTitle d
    · have hnot : ¬ (Diagram.sequence d).Records s.surface.refused id := fun hd => hd.2 (hrefuses.mp h)
      rw [TimelineStage.render_node?_of_refusesTitle h, if_neg hnot, hrecord]
    · rw [TimelineStage.render_node?_of_not_refusesTitle h, hrecord]
      cases hplace : d.lastPlace? id with
      | none =>
        have hnot : ¬ (Diagram.sequence d).Records s.surface.refused id := fun hd =>
          Sequence.lastPlace?_eq_none.mp hplace hd.1
        rw [if_neg hnot]
      | some x =>
        have hid : x.1.id = id := Sequence.id_of_lastPlace? hplace
        have hmem : id ∈ d.participantIds := by
          rw [← Sequence.lastPlace?_isSome, hplace]
          rfl
        have hrecords : (Diagram.sequence d).Records s.surface.refused id :=
          ⟨hmem, fun htitle => h (hrefuses.mpr htitle)⟩
        dsimp only
        rw [if_pos hrecords, recordOver_placedBare (by rw [hid, hrecord]) hwidth]

/-- However many diagrams are shown, a record is at most turned into a header,
    and that by the first that has a participant of that id. -/
theorem Sound.run_renders_node? (hs : s.Sound) (ds : List Diagram) {id : String} {r : Rect α}
    (hr : s.store.node? id = some r) (hwidth : 0 < r.width) :
    (s.run (ds.map .render)).store.node? id =
      some (if ∃ d ∈ ds, d.Records s.surface.refused id then r.headed else r) := by
  induction ds generalizing s r with
  | nil => simp [run, hr]
  | cons d ds ih =>
    have hfirst := hs.render_node? d hr hwidth
    have hrest := ih (s := s.call (.render d)) (hs.call (.render d)) hfirst
    have hrefused : (s.call (.render d)).surface.refused = s.surface.refused := s.render_refused d
    rw [hrefused] at hrest
    rw [List.map_cons, run, List.foldl_cons]
    by_cases hd : d.Records s.surface.refused id
    · rw [if_pos hd] at hrest
      rw [if_pos ⟨d, List.mem_cons_self, hd⟩]
      exact (hrest (by simpa using hwidth)).trans (by simp)
    · rw [if_neg hd] at hrest
      refine (hrest hwidth).trans ?_
      simp [hd]

/-- Whatever is shown, and however the session came about: a record that has a
    width is kept as it is, unless a sequence diagram with a participant of that
    id is shown to the end. Then it keeps its left side and its width only, and
    becomes the header of the participant. Showing a flowchart leaves all
    records alone. -/
theorem node?_run_renders (measure : Measure α) (store : Store α) (calls : List (Call α))
    (ds : List Diagram) {s : Session α} (hs : s = (start measure store).run calls) {id : String} {r : Rect α}
    (hr : s.store.node? id = some r) (hwidth : 0 < r.width) :
    ∃ r', (s.run (ds.map .render)).store.node? id = some r' ∧ r'.x = r.x ∧ r'.width = r.width ∧
      r' = if ∃ d ∈ ds, d.Records s.surface.refused id then r.headed else r := by
  have hsound : s.Sound := hs ▸ sound_run measure store calls
  refine ⟨_, hsound.run_renders_node? ds hr hwidth, ?_, ?_, rfl⟩
  · split <;> simp
  · split <;> simp

/-- The place of a node, away from the top. -/
def nodePlace : Rect α := ⟨100, 200, 160, 60⟩

/-- A new session over a store that knows the place of one node. -/
def nodeRecorded : Session α :=
  start (fun _ => ⟨0, 0⟩) ((default : Store α).setNode "a" nodePlace)

/-- Showing a participant under the id of a node loses how high the node was and
    how far down it stood. -/
theorem node?_run_renders_nodeRecorded :
    (nodeRecorded : Session ℝ).store.node? "a" = some nodePlace ∧
      (nodeRecorded.run [.render (Diagram.ofText "sequence\nparticipant a")]).store.node? "a" =
        some ⟨(nodePlace : Rect ℝ).x, 0, (nodePlace : Rect ℝ).width, Layout.participantHeight⟩ ∧
      (nodePlace : Rect ℝ).y ≠ 0 ∧ (nodePlace : Rect ℝ).height ≠ Layout.participantHeight := by
  have hr : (nodeRecorded : Session ℝ).store.node? "a" = some nodePlace := by
    simp [nodeRecorded, start, Store.node?_setNode]
  have hrecords : (Diagram.ofText "sequence\nparticipant a").Records
      (nodeRecorded : Session ℝ).surface.refused "a" := by
    have htext : Diagram.ofText "sequence\nparticipant a" = .sequence { participants := [⟨"a", "a"⟩] } := rfl
    rw [htext]
    exact ⟨by decide, fun h => h.1 rfl⟩
  obtain ⟨r', hr', -, -, hheaded⟩ := node?_run_renders _ _ []
    [Diagram.ofText "sequence\nparticipant a"] (s := nodeRecorded) rfl hr (by simp [nodePlace])
  refine ⟨hr, hr'.trans ?_, by simp [nodePlace], by simp [nodePlace, Layout.participantHeight]⟩
  rw [hheaded, if_pos ⟨_, List.mem_singleton_self _, hrecords⟩]
  simp [Rect.headed, TimelineStage.recordOver, Rect.same, Layout.participantHeight, nodePlace]

end Session

end LiveDiagram
