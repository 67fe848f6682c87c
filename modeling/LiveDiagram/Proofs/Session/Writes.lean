import LiveDiagram.Proofs.Chart.RenderWrites
import LiveDiagram.Proofs.Session.Calls
import LiveDiagram.Proofs.Session.Flowcharts

namespace LiveDiagram

variable {α : Type}

namespace Session

variable {s : Session α}

theorem onChart_of_chart {c : Chart α} (hc : s.picture = .chart c)
    (f : ChartStage α → Outcome (ChartStage α)) :
    s.onChart f = (f (s.withPicture c)).map fun t => t.withPicture (.chart t.picture) := by
  rw [onChart, hc]

/-- What records nothing of the chart that is shown records nothing of the
    session. -/
theorem onChart_sameRecords {f : ChartStage α → Outcome (ChartStage α)}
    (hf : ∀ c, s.picture = .chart c → Stage.SameRecords (s.withPicture c) (f (s.withPicture c)).state) :
    Stage.SameRecords s (s.onChart f).state := by
  cases hpicture : s.picture with
  | chart c =>
    have hchart := hf c hpicture
    rw [onChart_of_chart hpicture]
    exact ⟨hchart.store, hchart.edits⟩
  | timeline t =>
    rw [onChart, hpicture]
    exact .refl s

theorem onTimeline_of_timeline {t : Timeline α} (ht : s.picture = .timeline t)
    (f : TimelineStage α → Outcome (TimelineStage α)) :
    s.onTimeline f = (f (s.withPicture t)).map fun u => u.withPicture (.timeline u.picture) := by
  rw [onTimeline, ht]

/-- What records nothing of any timeline records nothing of the session. -/
theorem onTimeline_sameRecords {f : TimelineStage α → Outcome (TimelineStage α)}
    (hf : ∀ t, Stage.SameRecords t (f t).state) : Stage.SameRecords s (s.onTimeline f).state := by
  cases hpicture : s.picture with
  | chart c =>
    rw [onTimeline, hpicture]
    exact .refl s
  | timeline t =>
    have htimeline := hf (s.withPicture t)
    rw [onTimeline_of_timeline hpicture]
    exact ⟨htimeline.store, htimeline.edits⟩

theorem chartStage_sameRecords (s : Session α) :
    s.chartStage.store = s.store ∧ s.chartStage.edits = s.edits := by
  rw [chartStage]
  split <;> exact ⟨rfl, rfl⟩

end Session

variable [Scalar α]

namespace TimelineStage

variable (s : TimelineStage α)

theorem drawParticipant_sameRecords (id : String) :
    Stage.SameRecords s (s.drawParticipant id).state := by
  rw [drawParticipant]
  split
  · exact (Stage.SameRecords.refl s).draw _
  · exact .refl s

theorem drawMessage_sameRecords (key : String) : Stage.SameRecords s (s.drawMessage key).state := by
  rw [drawMessage]
  split
  · exact (Stage.SameRecords.refl s).draw _
  · exact .refl s

theorem drawNote_sameRecords (key : String) : Stage.SameRecords s (s.drawNote key).state := by
  rw [drawNote]
  split
  · exact ⟨rfl, rfl⟩
  · exact .refl s

/-- The messages and notes of a participant follow it without being recorded. -/
theorem updateDependents_sameRecords (id : String) :
    Stage.SameRecords s (s.updateDependents id).state := by
  rw [updateDependents]
  split
  · exact .refl s
  · refine Outcome.andThen_state (P := Stage.SameRecords s) ?_ fun t ht => ht.draw _
    refine Outcome.andThen_state (P := Stage.SameRecords s) ?_ fun t ht => ?_
    · exact Outcome.forEach_state (P := Stage.SameRecords s)
        (fun key _ t ht => ht.trans (drawMessage_sameRecords t key)) (.refl s)
    · exact Outcome.forEach_state (P := Stage.SameRecords s)
        (fun key _ u hu => hu.trans (drawNote_sameRecords u key)) ht

/-- Moving a participant records nothing. It is recorded when it is let go. -/
theorem moveParticipant_sameRecords (id : String) (x : α) :
    Stage.SameRecords s (s.moveParticipant id x).state := by
  rw [moveParticipant]
  split
  · exact .refl s
  · rename_i p _
    let moved : TimelineStage α := s.set (s.picture.setParticipant id { p with x })
    have hmoved : Stage.SameRecords s moved := ⟨rfl, rfl⟩
    exact Outcome.andThen_state (P := Stage.SameRecords s)
      (hmoved.trans (moved.drawParticipant_sameRecords id)) fun t ht =>
        ht.trans (updateDependents_sameRecords t id)

/-- A commit records the header that the participant has on the timeline. -/
theorem commitParticipant_commits {s : TimelineStage α} {id : String} {p : ParticipantItem α}
    (hp : s.picture.participants[id]? = some p) :
    Stage.Commits s (s.commitParticipant id) id p.header := by
  rw [commitParticipant, hp]
  exact .commit s id p.header

end TimelineStage

/-- A call that has nothing to record: it moves, selects, styles or clears. -/
def Call.isQuiet : Call α → Bool
  | .clear | .updateSettings _ => true
  | .editChart e =>
    match e with
    | .moveNode _ _ | .setSelected _ _ | .clearSelection | .selectEdge _ | .deselectEdge
    | .toggleEdge _ | .notifyDependents _ => true
    | _ => false
  | .editTimeline (.moveParticipant _ _) => true
  | _ => false

/-- The key of the edge that an edit reshapes. -/
def ChartEdit.reshaped? : ChartEdit α → Option String
  | .setAnchor key _ _ | .setControl key _ _ | .toggleCurve key => some key
  | _ => none

/-- The id of the node whose rectangle an edit records. -/
def ChartEdit.committed? : ChartEdit α → Option String
  | .commitNode id | .resizeNode id _ _ => some id
  | _ => none

namespace Session

variable {s : Session α}

theorem updateSettings_sameRecords (s : Session α) (settings : Settings) :
    Stage.SameRecords s (s.updateSettings settings) := by
  rw [updateSettings]
  have hstyled := onChart_sameRecords (s := { s with settings }) (f := fun t => .done t.restyle)
    fun c _ => (ChartStage.restyle_quiet _).toSameRecords
  exact ⟨hstyled.store, hstyled.edits⟩

/-- Quiet calls record nothing. A chart whose edges lack no control points is
    all that they need. -/
theorem Sound.call_sameRecords (hs : s.Sound) {c : Call α} (hc : c.isQuiet) :
    Stage.SameRecords s (s.call c) := by
  cases c with
  | clear => exact ⟨rfl, rfl⟩
  | updateSettings settings => exact s.updateSettings_sameRecords settings
  | editChart e =>
    refine onChart_sameRecords fun c hchart => ?_
    obtain ⟨-, hcomplete⟩ := hs c hchart
    have hcomplete' : (s.withPicture c : ChartStage α).picture.Complete := hcomplete
    cases e with
    | moveNode id corner => exact (ChartStage.moveNode_quiet hcomplete' id corner).toSameRecords
    | setSelected id selected => exact (ChartStage.setSelected_quiet _ id selected).toSameRecords
    | clearSelection => exact (ChartStage.clearSelection_quiet _).toSameRecords
    | selectEdge key => exact (ChartStage.selectEdge_quiet _ key).toSameRecords
    | deselectEdge => exact (ChartStage.deselectEdge_quiet _).toSameRecords
    | toggleEdge key => exact (ChartStage.toggleEdge_quiet _ key).toSameRecords
    | notifyDependents id => exact (ChartStage.notifyDependents_quiet hcomplete' id).toSameRecords
    | _ => cases hc
  | editTimeline e =>
    cases e with
    | moveParticipant id x => exact onTimeline_sameRecords fun t =>
        TimelineStage.moveParticipant_sameRecords t id x
    | commitParticipant id => cases hc
  | _ => cases hc

/-- No record was changed but that of the node or participant with that id. The
    positions were saved once, to any backend, and the edit was reported once,
    with the rectangle that is now recorded. -/
structure RecordsNode (id : String) (r : Rect α) (s t : Session α) : Prop where
  node? : ∀ other, t.store.node? other = if id = other then some r else s.store.node? other
  edge? : ∀ key, t.store.edge? key = s.store.edge? key
  backend : t.store.backend = (s.store.load.backend.save t.store.positions).1
  saves : ∀ m, s.store.backend = .memory m →
    ∃ m', t.store.backend = .memory m' ∧ m'.saves = m.saves + 1
  edits : t.edits = s.edits ++ [(id, r)]

theorem recordsNode_of_commits {t : Session α} {id : String} {r : Rect α} (h : Stage.Commits s t id r) :
    RecordsNode id r s t :=
  ⟨h.node?, h.edge?, h.backend, fun _ hm => h.saves hm, h.edits⟩

/-- No record was changed but that of the edge with that key, and no edit was
    reported. -/
structure RecordsEdge (key : String) (s t : Session α) : Prop where
  node? : ∀ id, t.store.node? id = s.store.node? id
  edge? : ∀ other, key ≠ other → t.store.edge? other = s.store.edge? other
  edits : t.edits = s.edits

/-- Reshaping an edge changes the record of that edge only, whatever the surface
    refuses. -/
theorem Sound.call_recordsEdge (hs : s.Sound) {e : ChartEdit α} {key : String}
    (he : e.reshaped? = some key) : RecordsEdge key s (s.call (.editChart e)) := by
  cases hpicture : s.picture with
  | timeline t =>
    rw [Session.call, Session.onChart, hpicture]
    exact ⟨fun _ => rfl, fun _ _ => rfl, rfl⟩
  | chart c =>
    have hlinked : (s.withPicture c : ChartStage α).picture.Linked := (hs c hpicture).1
    have hreshapes : ChartStage.Reshapes key (s.withPicture c) (ChartStage.edit (s.withPicture c) e).state := by
      cases e with
      | setAnchor key' which p =>
        obtain rfl := Option.some.inj he
        exact ChartStage.setAnchor_reshapes hlinked key' which p
      | setControl key' index p =>
        obtain rfl := Option.some.inj he
        exact ChartStage.setControl_reshapes hlinked key' index p
      | toggleCurve key' =>
        obtain rfl := Option.some.inj he
        exact ChartStage.toggleCurve_reshapes hlinked key'
      | _ => cases he
    rw [Session.call, onChart_of_chart hpicture]
    exact ⟨hreshapes.node?, hreshapes.edge?, hreshapes.edits⟩

/-- Committing or resizing a node records the rectangle that the node then has.
    A node that the surface refuses is resized on the chart and not recorded. -/
theorem Sound.call_recordsNode (hs : s.Sound) (haccepts : s.surface.Accepts) {c : Chart α}
    (hc : s.picture = .chart c) {e : ChartEdit α} {id : String} (he : e.committed? = some id)
    {n : NodeItem α} (hn : c.nodes[id]? = some n) :
    ∃ c' n', (s.call (.editChart e)).picture = .chart c' ∧ c'.nodes[id]? = some n' ∧
      RecordsNode id n'.rect s (s.call (.editChart e)) := by
  have hcomplete : (s.withPicture c : ChartStage α).picture.Complete := (hs c hc).2
  have hnode : (s.withPicture c : ChartStage α).picture.nodes[id]? = some n := hn
  obtain ⟨n', hn', hcommits⟩ : ∃ n',
      (ChartStage.edit (s.withPicture c) e).state.picture.nodes[id]? = some n' ∧
      Stage.Commits (s.withPicture c) (ChartStage.edit (s.withPicture c) e).state id n'.rect := by
    cases e with
    | commitNode id' =>
      obtain rfl := Option.some.inj he
      refine ⟨n, ?_, ChartStage.commitNode_commits hnode⟩
      rw [ChartStage.edit, Outcome.done_state, ChartStage.commitNode_picture, hnode]
    | resizeNode id' h step =>
      obtain rfl := Option.some.inj he
      exact ChartStage.resizeNode_commits hcomplete haccepts hnode h step
    | _ => cases he
  rw [Session.call, onChart_of_chart hc]
  exact ⟨_, n', rfl, hn', recordsNode_of_commits ⟨hcommits.store, hcommits.edits⟩⟩

theorem call_commitParticipant {t : Timeline α} (ht : s.picture = .timeline t) {id : String}
    {p : ParticipantItem α} (hp : t.participants[id]? = some p) :
    (s.call (.editTimeline (.commitParticipant id))).picture = .timeline t ∧
      RecordsNode id p.header s (s.call (.editTimeline (.commitParticipant id))) := by
  have hcommits := TimelineStage.commitParticipant_commits (s := s.withPicture t) hp
  have hpicture : (TimelineStage.commitParticipant (s.withPicture t) id).picture = t := by
    rw [TimelineStage.commitParticipant]
    split <;> rfl
  rw [Session.call, onTimeline_of_timeline ht]
  exact ⟨congrArg Picture.timeline hpicture, recordsNode_of_commits ⟨hcommits.store, hcommits.edits⟩⟩

theorem Sound.renderFlowchart_completes (hs : s.Sound) (d : Flowchart) :
    s.store.Completes (s.renderFlowchart d).store ∧ (s.renderFlowchart d).edits = s.edits := by
  obtain ⟨hstore, hedits⟩ := s.chartStage_sameRecords
  have hrender := ChartStage.render_completesRecords d hs.chartStage.2
  rw [← hstore, ← hedits]
  exact ⟨hrender.store, hrender.edits⟩

/-- What each operation may write. The store is written by commits, by edits of
    the shape of an edge, and by renders that find a curve without its control
    points. Everything else leaves it alone. -/
structure WriteDiscipline (s : Session α) : Prop where
  /-- Moving, selecting, styling and clearing write nothing and save nothing. -/
  quiet : ∀ c : Call α, c.isQuiet → Stage.SameRecords s (s.call c)
  /-- Committing or resizing a node records the rectangle that the node then
      has, in one save. -/
  node : s.surface.Accepts → ∀ c : Chart α, s.picture = .chart c → ∀ (e : ChartEdit α) (id : String),
    e.committed? = some id → id ∈ c.nodes →
      ∃ c' n', (s.call (.editChart e)).picture = .chart c' ∧ c'.nodes[id]? = some n' ∧
        RecordsNode id n'.rect s (s.call (.editChart e))
  /-- Committing a participant records its header, in one save. -/
  participant : ∀ (t : Timeline α) (id : String) (p : ParticipantItem α), s.picture = .timeline t →
    t.participants[id]? = some p →
      (s.call (.editTimeline (.commitParticipant id))).picture = .timeline t ∧
        RecordsNode id p.header s (s.call (.editTimeline (.commitParticipant id)))
  /-- Reshaping an edge records that edge. -/
  edge : ∀ (e : ChartEdit α) (key : String), e.reshaped? = some key →
    RecordsEdge key s (s.call (.editChart e))
  /-- Rendering a flowchart records control points of curves that lacked some in
      their records. -/
  render : ∀ d : Flowchart, s.store.Completes (s.renderFlowchart d).store ∧
    (s.renderFlowchart d).edits = s.edits

/-- Whatever was done to a session, its operations go on writing what they are
    about and nothing else. They need the chart to be linked and complete, which
    no call can spoil, and only the recording of a node needs a surface that
    takes it. -/
theorem writeDiscipline_run (measure : Measure α) (store : Store α) (calls : List (Call α)) :
    ((start measure store).run calls).WriteDiscipline := by
  have hsound := sound_run measure store calls
  refine
    { quiet := fun c hc => hsound.call_sameRecords hc
      node := fun haccepts c hc e id he hid => ?_
      participant := fun t id p ht hp => call_commitParticipant ht hp
      edge := fun e key he => hsound.call_recordsEdge he
      render := hsound.renderFlowchart_completes }
  obtain ⟨n, hn⟩ := Option.isSome_iff_exists.mp (Std.ExtTreeMap.mem_iff_isSome_getElem?.mp hid)
  exact hsound.call_recordsNode haccepts hc he hn

/-- Committing a node that is shown records that node. -/
theorem writeDiscipline_run_oneEdgeShown :
    "a" ∈ oneEdgeShown.picture.chartOrEmpty.nodes ∧
      ∃ c n, (oneEdgeShown.call (.editChart (.commitNode "a"))).picture = .chart c ∧
        c.nodes["a"]? = some n ∧
        RecordsNode "a" n.rect oneEdgeShown (oneEdgeShown.call (.editChart (.commitNode "a"))) := by
  obtain ⟨s, hshown, haccepts⟩ : ∃ s : ChartStage Float,
      oneEdgeShown = (s.render oneEdge).withPicture (.chart (s.render oneEdge).picture) ∧ s.surface.Accepts :=
    ⟨(start (fun _ => ⟨0, 0⟩) default).chartStage, rfl, Surface.accepts_empty⟩
  have hid : "a" ∈ oneEdgeShown.picture.chartOrEmpty.nodes := by
    rw [hshown]
    show "a" ∈ (s.render oneEdge).picture.nodes
    rw [Chart.mem_nodes_iff, ChartStage.render_bare?, Option.isSome_map, Flowchart.lastNode?_isSome]
    decide
  have hrendered : (s.render oneEdge).surface.Accepts := by
    have hsteps := s.render_steps (P := fun _ => True) (d := oneEdge) fun _ _ => trivial
    exact hsteps.sameSetup.accepts haccepts
  have hsurface : oneEdgeShown.surface.Accepts := by
    simpa only [hshown, Stage.withPicture] using hrendered
  have hdiscipline : oneEdgeShown.WriteDiscipline :=
    writeDiscipline_run (fun _ => ⟨0, 0⟩) default [.render (.flowchart oneEdge)]
  exact ⟨hid, hdiscipline.node hsurface _ rfl (.commitNode "a") "a" rfl hid⟩

end Session

end LiveDiagram
