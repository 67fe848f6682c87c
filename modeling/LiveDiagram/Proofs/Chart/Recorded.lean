import LiveDiagram.Proofs.Chart.Writes

namespace LiveDiagram

variable {α : Type} [Scalar α]

namespace ChartStage

/-- The store is loaded, and what it records of the edge is the shape that the
    edge has. An edge that is not on the chart may have any record. -/
def RecordedAt (s : ChartStage α) (key : String) : Prop :=
  ∀ shape, s.shape? key = some shape → s.store.loaded.isSome ∧ (s.store.edge? key).getD {} = shape

/-- Every edge has the shape that the store records for it, or the plain one if
    there is no record. -/
def Recorded (s : ChartStage α) : Prop :=
  ∀ key, s.RecordedAt key

variable {s t u : ChartStage α}

/-- What is recorded stays so while the edge keeps its shape and its record, or
    leaves the chart. -/
theorem RecordedAt.congr {key : String} (hs : s.RecordedAt key)
    (hshape : ∀ shape, t.shape? key = some shape → s.shape? key = some shape)
    (hedge : t.store.edge? key = s.store.edge? key)
    (hloaded : s.store.loaded.isSome → t.store.loaded.isSome) : t.RecordedAt key := by
  intro shape h
  obtain ⟨hload, hrecord⟩ := hs shape (hshape shape h)
  exact ⟨hloaded hload, hedge ▸ hrecord⟩

/-- A change that records nothing and reshapes nothing keeps the shapes
    recorded. -/
theorem Recorded.quiet (hs : s.Recorded) (h : Quiet s t) : t.Recorded := fun key =>
  (hs key).congr (h.shape? key) (h.store ▸ rfl) (h.store ▸ id)

theorem recorded_of_empty (hempty : s.picture.edges = ∅) : s.Recorded := by
  intro key shape h
  rw [shape?, hempty] at h
  simp at h

/-- Recording a node loads the store and leaves the records of edges. -/
theorem Recorded.commitNode (hs : s.Recorded) (id : String) : (s.commitNode id).Recorded := by
  intro key
  rw [ChartStage.commitNode]
  split
  · exact (hs key).congr (fun _ h => h) (s.store.edge?_setNode _ _ _) fun _ => s.store.loaded_setNode _ _
  · exact hs key

/-- Only the edge with that key and its record were changed, and both to the
    same shape if they agreed before. -/
structure Reshapes (key : String) (s t : ChartStage α) : Prop where
  edits : t.edits = s.edits
  node? : ∀ id, t.store.node? id = s.store.node? id
  edge? : ∀ other, key ≠ other → t.store.edge? other = s.store.edge? other
  shape? : ∀ other, key ≠ other → t.shape? other = s.shape? other
  loaded : s.store.loaded.isSome → t.store.loaded.isSome
  recordedAt : s.RecordedAt key → t.RecordedAt key

namespace Reshapes

variable {key : String}

theorem refl (key : String) (s : ChartStage α) : Reshapes key s s :=
  ⟨rfl, fun _ => rfl, fun _ _ => rfl, fun _ _ => rfl, id, id⟩

/-- A change of one edge together with its record keeps the shapes recorded. -/
theorem recorded (h : Reshapes key s t) (hs : s.Recorded) : t.Recorded := by
  intro other
  by_cases heq : key = other
  · exact heq ▸ h.recordedAt (hs key)
  · exact (hs other).congr (fun _ hshape => h.shape? other heq ▸ hshape) (h.edge? other heq) h.loaded

end Reshapes

section Reshaping

variable {key : String} {e : EdgeItem α} {ends : Rect α × Rect α}

/-- An edge is put with another shape, which is recorded in the place of one
    that has no other points. The store may hold a record of that edge that the
    chart does not know of yet. Keeping the points is a premise because the
    store merges a shape into the recorded one, and would keep a point that the
    new shape lacks. -/
theorem reshaped_reshapes (hedge : e.edge.key = key) (hends : s.picture.ends? e.edge = some ends)
    (store : Store α) (hnode : ∀ id, store.node? id = s.store.node? id)
    (hother : ∀ other, key ≠ other → store.edge? other = s.store.edge? other) {shape : EdgeShape α}
    (hshape : s.RecordedAt key → shape.Extends ((store.edge? key).getD {})) :
    Reshapes key s
      (((ChartStage.set { s with store } (s.picture.setEdge key { e with shape })).persistEdge e.edge
        shape).updateEdge key).state := by
  subst hedge
  let e' : EdgeItem α := { e with shape }
  let recorded : Store α := store.updateEdge e.edge.key shape.toUpdate
  have hstate : (((ChartStage.set { s with store } (s.picture.setEdge e.edge.key e')).persistEdge e.edge
      shape).updateEdge e.edge.key).state =
      (Stage.draw
        { s with
          picture := s.picture.setEdge e.edge.key (e'.routed ends)
          store := recorded.routed e' ends }
        ((e'.routed ends).marks s.measure e.edge.key)).state :=
    congrArg Outcome.state (reshaped_eq (s := { s with store }) hends shape)
  rw [hstate]
  have hloaded : (recorded.routed e' ends).loaded.isSome :=
    Store.loaded_routed (store.loaded_updateEdge _ _) e' ends
  refine
    { edits := rfl, node? := fun id => ?_, edge? := fun other hne => ?_, shape? := fun other hne => ?_,
      loaded := fun _ => hloaded, recordedAt := fun hs => ?_ }
  · rw [Stage.draw_store, Store.node?_routed, Store.node?_updateEdge, hnode]
  · rw [Stage.draw_store, Store.edge?_routed_of_ne (e := e') hne, Store.edge?_updateEdge_of_ne _ hne,
      hother other hne]
  · simp only [ChartStage.shape?, Stage.draw_picture, Chart.setEdge_getElem?, if_neg hne]
  · intro drawn hdrawn
    have hput : shape.completed ends.1 ends.2 = drawn := by
      simpa [ChartStage.shape?, EdgeItem.routed, e'] using hdrawn
    have hrecord : e'.shape = (recorded.edge? e'.edge.key).getD {} := by
      rw [Store.edge?_record (hshape hs), Option.getD_some]
    exact ⟨hloaded, (Store.edge?_routed hrecord ends).trans hput⟩

/-- Reshaping an edge changes it together with its record, if no point is taken
    from it. This holds when the surface stops the drawing too, as the shape is
    recorded first. -/
theorem reshapeEdge_reshapes (hlinked : s.picture.Linked)
    {f : EdgeShape α → Rect α → Rect α → EdgeShape α}
    (hf : ∀ shape source target, (f shape source target).Extends shape) (key : String) :
    Reshapes key s (s.reshapeEdge key f).state := by
  rw [reshapeEdge]
  cases he : s.picture.edges[key]? with
  | none => exact .refl key s
  | some e =>
    cases hends : s.picture.ends? e.edge with
    | none =>
      simp only [hends]
      exact .refl key s
    | some ends =>
      simp only [hends]
      refine reshaped_reshapes (hlinked.keyed he) hends s.store (fun _ => rfl) (fun _ _ => rfl)
        fun hrecorded => ?_
      rw [(hrecorded e.shape (shape?_of_getElem? he)).2]
      exact hf e.shape ends.1 ends.2

/-- Dragging an end of an edge changes the edge together with its record. -/
theorem setAnchor_reshapes (hlinked : s.picture.Linked) (key : String) (which : EdgeEnd) (p : Point α) :
    Reshapes key s (s.setAnchor key which p).state := by
  rw [setAnchor]
  refine reshapeEdge_reshapes hlinked (fun shape source target => ?_) key
  cases which with
  | start => exact ⟨fun _ => rfl, id, id, id⟩
  | finish => exact ⟨id, fun _ => rfl, id, id⟩

/-- Dragging a control point changes the edge together with its record, also if
    the index is that of no control point. -/
theorem setControl_reshapes (hlinked : s.picture.Linked) (key : String) (index : Int) (p : Point α) :
    Reshapes key s (s.setControl key index p).state := by
  rw [setControl]
  refine reshapeEdge_reshapes hlinked (fun shape source target => ?_) key
  split
  · exact ⟨id, id, fun _ => rfl, id⟩
  · exact ⟨id, id, id, fun _ => rfl⟩

/-- Turning a straight edge into a curve or back changes the edge together with
    its record. The turned shape has the points that it had, and the completed
    one has them too: a curve that is made straight keeps its control points. -/
theorem toggleCurve_reshapes (hlinked : s.picture.Linked) (key : String) :
    Reshapes key s (s.toggleCurve key).state := by
  rw [toggleCurve]
  cases he : s.picture.edges[key]? with
  | none => exact .refl key s
  | some e =>
    cases hends : s.picture.ends? e.edge with
    | none =>
      simp only [hends]
      exact .refl key s
    | some ends =>
      have hkey := hlinked.keyed he
      let turned : EdgeShape α := { e.shape with curved := !e.shape.curved }
      have hturned : s.RecordedAt key → turned.Extends ((s.store.edge? key).getD {}) := by
        intro hrecorded
        rw [(hrecorded e.shape (shape?_of_getElem? he)).2]
        exact ⟨id, id, id, id⟩
      have hcompleted : s.RecordedAt key →
          (turned.withControls ends.1 ends.2).Extends ((s.store.edge? key).getD {}) := fun hrecorded =>
        (turned.extends_withControls ends.1 ends.2).trans (hturned hrecorded)
      simp only [hends, completeShape]
      split
      · let recorded := s.store.updateEdge e.edge.key (turned.withControls ends.1 ends.2).toUpdate
        refine reshaped_reshapes hkey hends recorded (fun id => ?_) (fun other hne => ?_) fun hrecorded => ?_
        · exact s.store.node?_updateEdge _ _ id
        · exact s.store.edge?_updateEdge_of_ne (hkey ▸ hne) _
        · have hrecord : recorded.edge? key = some (turned.withControls ends.1 ends.2) := by
            rw [← Store.edge?_record (hcompleted hrecorded), ← hkey]
          rw [hrecord, Option.getD_some]
          exact .refl _
      · exact reshaped_reshapes hkey hends s.store (fun _ => rfl) (fun _ _ => rfl) hturned

end Reshaping

section Edits

theorem commitNode_complete (hs : s.picture.Complete) (id : String) :
    (s.commitNode id).picture.Complete := by
  rw [commitNode_picture]
  exact hs

/-- Resizing a node keeps the shapes of edges recorded. Its edges are routed
    again, which completes none of them on a complete chart. -/
theorem Recorded.resizeNode (hs : s.Recorded) (hcomplete : s.picture.Complete) (id : String)
    (h : Handle) (step : Point α) : (s.resizeNode id h step).state.Recorded := by
  have hresized := s.modifyNode_quiet id fun n =>
    { n with rect := n.rect.resize h step Layout.minNodeSize }
  suffices hboth : (s.resizeNode id h step).state.picture.Complete ∧
      (s.resizeNode id h step).state.Recorded from hboth.2
  refine Outcome.andThen_state (P := fun t : ChartStage α => t.picture.Complete ∧ t.Recorded)
    ⟨hresized.complete hcomplete, hs.quiet hresized⟩ fun t ht => ?_
  have hrouted := notifyDependents_quiet ht.1 id
  exact ⟨commitNode_complete (hrouted.complete ht.1) id, (ht.2.quiet hrouted).commitNode id⟩

/-- Normalizing a node keeps the chart complete and the shapes recorded. -/
theorem Recorded.normalizeNode (hs : s.Recorded) (hcomplete : s.picture.Complete) (id : String) :
    (s.normalizeNode id).state.picture.Complete ∧ (s.normalizeNode id).state.Recorded := by
  have hquiet := s.modifyNode_quiet id fun n =>
    { n with rect := Layout.normalized n.rect (s.measure n.label) }
  refine Outcome.andThen_state (P := fun t : ChartStage α => t.picture.Complete ∧ t.Recorded)
    ⟨hquiet.complete hcomplete, hs.quiet hquiet⟩ fun t ht => ?_
  exact ⟨commitNode_complete ht.1 id, ht.2.commitNode id⟩

/-- Nodes are normalized one by one. Each time a rectangle is recorded, and no
    edge is touched. -/
theorem Recorded.normalizeLayout (hs : s.Recorded) (hcomplete : s.picture.Complete) :
    s.normalizeLayout.Recorded := by
  obtain ⟨hcomplete', hs'⟩ :=
    List.foldlRecOn (motive := fun t : ChartStage α => t.picture.Complete ∧ t.Recorded)
      s.picture.nodes.keys (fun t id => (t.normalizeNode id).state) ⟨hcomplete, hs⟩
      fun t ht id _ => ht.2.normalizeNode ht.1 id
  exact hs'.quiet (updateEdges_quiet hcomplete' _)

/-- Every edit keeps each edge on the chart with the shape that is recorded for
    it, whether or not the surface stops it. On a complete chart the routing of
    edges records nothing, so an edit records at most what it is about. -/
theorem Recorded.edit (hs : s.Recorded) (hlinked : s.picture.Linked) (hcomplete : s.picture.Complete)
    (e : ChartEdit α) : (s.edit e).state.Recorded := by
  cases e with
  | moveNode id corner => exact hs.quiet (moveNode_quiet hcomplete id corner)
  | resizeNode id h step => exact hs.resizeNode hcomplete id h step
  | commitNode id => exact hs.commitNode id
  | setSelected id selected => exact hs.quiet (s.setSelected_quiet id selected)
  | clearSelection => exact hs.quiet s.clearSelection_quiet
  | selectEdge key => exact hs.quiet (s.selectEdge_quiet key)
  | deselectEdge => exact hs.quiet s.deselectEdge_quiet
  | toggleEdge key => exact hs.quiet (s.toggleEdge_quiet key)
  | setAnchor key which p => exact (setAnchor_reshapes hlinked key which p).recorded hs
  | setControl key index p => exact (setControl_reshapes hlinked key index p).recorded hs
  | toggleCurve key => exact (toggleCurve_reshapes hlinked key).recorded hs
  | notifyDependents id => exact hs.quiet (notifyDependents_quiet hcomplete id)
  | normalizeLayout => exact hs.normalizeLayout hcomplete

end Edits

end ChartStage

end LiveDiagram
