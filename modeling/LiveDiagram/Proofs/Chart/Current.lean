import LiveDiagram.Proofs.Chart.Routes
import LiveDiagram.Proofs.Chart.Scene

namespace LiveDiagram

variable {α : Type} [Scalar α]

namespace ChartStage

/-- A stage with a chart is current if all that is derived is as it would be
    derived now: routes from rectangles, styles from classes and settings, and
    the surface from the chart. -/
structure Current (s : ChartStage α) : Prop where
  linked : s.picture.Linked
  routed : s.picture.Routed
  styled : s.Styled
  inSync : s.InSync

variable {s : ChartStage α}

/-- Every edit keeps a stage current, also one that the surface stops: an edit
    is a sequence of elementary changes, and each of them keeps it. -/
theorem Current.edit (hs : s.Current) (e : ChartEdit α) : (s.edit e).state.Current :=
  have hsteps : Steps ColonFree s (s.edit e).state := s.edit_steps e
  { linked := hsteps.linked hs.linked
    routed := edit_routed hs.inSync.accepts hs.linked hs.routed e
    styled := hsteps.styled hs.styled
    inSync := hsteps.inSync hs.inSync }

/-- A stage stays in sync with its chart when the classes, the direction or the
    settings change. What is on the surface is compared with the nodes and the
    edges only. -/
theorem InSync.congr {t : ChartStage α} (hs : s.InSync) (hsurface : t.surface = s.surface)
    (hmeasure : t.measure = s.measure) (hnodes : t.picture.nodes = s.picture.nodes)
    (hedges : t.picture.edges = s.picture.edges) : t.InSync where
  accepts := hsurface ▸ hs.accepts
  named id hid := hs.named id (hnodes ▸ hid)
  depicts := by
    rw [hsurface, hmeasure]
    have hbare : ∀ id, t.picture.bare? id = s.picture.bare? id := by
      intro id
      unfold Chart.bare?
      rw [hnodes]
    refine hs.depicts.congr (fun marks => ⟨fun h => ?_, fun h => ?_⟩) rfl
    · exact h.congr (fun id => (hbare id).symm) fun key => by rw [hedges]
    · exact h.congr hbare fun key => by rw [hedges]

/-- Rendering a flowchart brings everything up to date. The styles need not have
    been up to date before, as every node of the flowchart is placed again. An
    id with a colon could name a part of another node, which is why there must
    be none. -/
theorem current_render (hlinked : s.picture.Linked) (hsync : s.InSync) {d : Flowchart}
    (hnames : ∀ id ∈ d.nodeIds, ColonFree id) : (s.render d).Current := by
  have hsteps := s.render_steps hnames
  have hstart : (s.set { s.picture with classes := d.classes, direction := d.direction }).InSync :=
    hsync.congr rfl rfl rfl rfl
  refine ⟨hsteps.linked (hlinked.congr rfl rfl), s.render_routed d, ?_, hsteps.inSync hstart⟩
  intro id n hn
  rw [render_bare?] at hn
  obtain ⟨last, -, rfl⟩ := Option.map_eq_some_iff.mp hn
  have hclasses : (s.render d).picture.classes = d.classes := hsteps.classes
  have hsettings := (s.render_sameSetup d).settings
  have hstyle : (s.pruned d).styleFor last.className = (s.render d).styleFor last.className := by
    rw [pruned_styleFor, styleFor, hclasses, hsettings]
  exact hstyle

/-- Restyling a node is seen at that node only. -/
private theorem restyleNode_bare? (s : ChartStage α) (id other : String) :
    (s.modifyNode id fun n => { n with style := s.styleFor n.className }).state.picture.bare? other =
      if id = other then
        (s.picture.bare? other).map fun n => { n with style := s.styleFor n.className }
      else s.picture.bare? other := by
  unfold modifyNode
  cases hn : s.picture.nodes[id]? with
  | none =>
    have hnone : s.picture.bare? id = none := Chart.bare?_eq_none_iff.mpr hn
    by_cases heq : id = other
    · simp [← heq, hnone]
    · simp [heq]
  | some n =>
    dsimp only
    rw [set_drawNode, Stage.draw_picture, Chart.setNode_bare?]
    by_cases heq : id = other
    · rw [if_pos heq, if_pos heq, ← heq, Chart.bare?_of_getElem? hn]
      rfl
    · rw [if_neg heq, if_neg heq]

/-- Restyling nodes is seen at these only. The induction is on the nodes that
    are still to be restyled. -/
private theorem foldl_restyleNode_bare? (ids : List String) (s : ChartStage α) (other : String) :
    (ids.foldl (fun s id =>
        (s.modifyNode id fun n => { n with style := s.styleFor n.className }).state)
          s).picture.bare? other =
      if other ∈ ids then
        (s.picture.bare? other).map fun n => { n with style := s.styleFor n.className }
      else s.picture.bare? other := by
  induction ids generalizing s with
  | nil => simp
  | cons id ids ih =>
    have hstep : Steps (fun _ => True) s
        (s.modifyNode id fun n => { n with style := s.styleFor n.className }).state :=
      s.modifyNode_steps id (fun _ => rfl) fun _ => .inl rfl
    have hstyle := hstep.styleFor
    rw [List.foldl_cons, ih, restyleNode_bare?, hstyle]
    by_cases hid : id = other
    · by_cases hmem : other ∈ ids <;> simp [hid, hmem, Function.comp_def]
    · simp [hid, Ne.symm hid]

/-- All styles are up to date when all nodes were restyled. -/
theorem restyle_styled (s : ChartStage α) : s.restyle.Styled := by
  have hsteps : Steps (fun _ => True) s s.restyle := s.restyle_steps
  intro id n hn
  rw [hsteps.styleFor]
  unfold restyle at hn
  rw [foldl_restyleNode_bare?] at hn
  split at hn
  · obtain ⟨m, -, rfl⟩ := Option.map_eq_some_iff.mp hn
    rfl
  · rename_i hnot
    have hmem : id ∈ s.picture.nodes := Chart.mem_nodes_iff.mpr (by rw [hn]; rfl)
    exact absurd (Std.ExtTreeMap.mem_keys.mpr hmem) hnot

/-- New settings are applied to all nodes, and keep everything else up to
    date. -/
theorem Current.restyle (hs : s.Current) (settings : Settings) :
    (ChartStage.restyle { s with settings }).Current := by
  let t : ChartStage α := { s with settings }
  have hsteps : Steps ColonFree t t.restyle := t.restyle_steps
  have hsync : t.InSync := hs.inSync.congr rfl rfl rfl rfl
  exact {
    linked := hsteps.linked (s := t) hs.linked
    routed := restyle_routed (s := t) hs.routed
    styled := restyle_styled t
    inSync := hsteps.inSync hsync }

/-- An empty chart on an empty surface is current. -/
theorem current_empty {s : ChartStage α} (haccepts : s.surface.Accepts)
    (hblank : s.surface.primitives = ∅) (hempty : s.picture = .empty) : s.Current where
  linked := hempty ▸ Chart.linked_empty
  routed key e he := by
    rw [hempty] at he
    simp [Chart.empty] at he
  styled id n hn := by
    rw [hempty] at hn
    simp [Chart.empty, Chart.bare?] at hn
  inSync := by
    refine ⟨haccepts, fun id hid => ?_, (Surface.depicts_empty hblank).congr (fun marks => ?_) rfl⟩
    · rw [hempty] at hid
      simp [Chart.empty] at hid
    · rw [hempty]
      constructor
      · intro h
        cases h with
        | node hn => simp [Chart.empty, Chart.bare?] at hn
        | edge he => simp [Chart.empty] at he
      · exact False.elim

/-- Every route runs between the current rectangles of its two nodes. -/
theorem Current.route_eq (hs : s.Current) {key : String} {e : EdgeItem α}
    (he : s.picture.edges[key]? = some e) :
    ∃ source target, s.picture.ends? e.edge = some (source, target) ∧
      e.route = e.shape.route source target :=
  hs.routed.route_eq hs.linked he

end ChartStage

end LiveDiagram
