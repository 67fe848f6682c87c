import LiveDiagram.Proofs.Chart.Routes
import LiveDiagram.Proofs.Chart.Shapes

namespace LiveDiagram

variable {α : Type}

namespace Stage

variable {π : Type}

/-- Nothing was recorded. The store is the same to the last save, and no edit
    was added. -/
structure SameRecords (s t : Stage π α) : Prop where
  store : t.store = s.store
  edits : t.edits = s.edits

namespace SameRecords

variable {s t u : Stage π α}

theorem refl (s : Stage π α) : SameRecords s s :=
  ⟨rfl, rfl⟩

theorem trans (h : SameRecords s t) (h' : SameRecords t u) : SameRecords s u :=
  ⟨h'.store.trans h.store, h'.edits.trans h.edits⟩

theorem draw (h : SameRecords s t) (marks : List (Mark α)) : SameRecords s (t.draw marks).state :=
  ⟨h.store, h.edits⟩

end SameRecords

variable [Scalar α]

/-- The rectangle of one node or participant was recorded, in one save, and
    reported as an edit. -/
structure Commits (s t : Stage π α) (id : String) (r : Rect α) : Prop where
  store : t.store = s.store.setNode id r
  edits : t.edits = s.edits ++ [(id, r)]

namespace Commits

variable {s t u : Stage π α} {id : String} {r : Rect α}

theorem commit (s : Stage π α) (id : String) (r : Rect α) : Commits s (s.commit id r) id r :=
  ⟨rfl, rfl⟩

theorem of_sameRecords (h : SameRecords s t) (h' : Commits t u id r) : Commits s u id r :=
  ⟨h.store ▸ h'.store, h.edits ▸ h'.edits⟩

theorem node? (h : Commits s t id r) (other : String) :
    t.store.node? other = if id = other then some r else s.store.node? other := by
  rw [h.store, Store.node?_setNode]

theorem edge? (h : Commits s t id r) (key : String) : t.store.edge? key = s.store.edge? key := by
  rw [h.store, Store.edge?_setNode]

theorem backend (h : Commits s t id r) :
    t.store.backend = (s.store.load.backend.save t.store.positions).1 := by
  rw [h.store]
  exact s.store.backend_setNode id r

/-- A store in memory is saved once by a commit, also if that save fails. -/
theorem saves (h : Commits s t id r) {m : Memory α} (hm : s.store.backend = .memory m) :
    ∃ m', t.store.backend = .memory m' ∧ m'.saves = m.saves + 1 := by
  rw [h.store]
  exact s.store.saves_setNode hm id r

end Commits

end Stage

namespace ChartStage

/-- The shape of an edge on the chart. -/
def shape? (s : ChartStage α) (key : String) : Option (EdgeShape α) :=
  s.picture.edges[key]?.map EdgeItem.shape

theorem shape?_of_getElem? {s : ChartStage α} {key : String} {e : EdgeItem α}
    (he : s.picture.edges[key]? = some e) : s.shape? key = some e.shape := by
  rw [shape?, he, Option.map_some]

theorem exists_of_shape? {s : ChartStage α} {key : String} {shape : EdgeShape α}
    (hshape : s.shape? key = some shape) : ∃ e, s.picture.edges[key]? = some e ∧ e.shape = shape :=
  Option.map_eq_some_iff.mp hshape

/-- Nothing was recorded, and no edge has another shape than it had. Edges may
    have been removed. -/
structure Quiet (s t : ChartStage α) : Prop extends Stage.SameRecords s t where
  shape? : ∀ key shape, t.shape? key = some shape → s.shape? key = some shape

namespace Quiet

variable {s t u : ChartStage α}

theorem of_shape?_eq (h : Stage.SameRecords s t) (hshape : ∀ key, t.shape? key = s.shape? key) :
    Quiet s t :=
  ⟨h, fun key _ hkey => hshape key ▸ hkey⟩

theorem refl (s : ChartStage α) : Quiet s s :=
  ⟨.refl s, fun _ _ h => h⟩

theorem trans (h : Quiet s t) (h' : Quiet t u) : Quiet s u :=
  ⟨h.toSameRecords.trans h'.toSameRecords, fun key shape hu => h.shape? key shape (h'.shape? key shape hu)⟩

theorem complete (h : Quiet s t) (hs : s.picture.Complete) : t.picture.Complete := by
  intro key e he
  obtain ⟨old, hold, hsame⟩ := exists_of_shape? (h.shape? key e.shape (shape?_of_getElem? he))
  rw [← hsame]
  exact hs key old hold

/-- Changes that are made item by item are quiet, if each of them is. -/
theorem foldl {ι : Type} {f : ChartStage α → ι → ChartStage α} (hf : ∀ s x, Quiet s (f s x))
    (items : List ι) (s : ChartStage α) : Quiet s (items.foldl f s) := by
  induction items generalizing s with
  | nil => exact refl s
  | cons x items ih => exact (hf s x).trans (ih (f s x))

end Quiet

section Removal

variable (s : ChartStage α)

/-- Removing an edge is quiet: its record stays, in case the edge comes back. -/
theorem removeEdge_quiet (key : String) : Quiet s (s.removeEdge key) := by
  cases he : s.picture.edges[key]? with
  | none =>
    rw [removeEdge_of_getElem?_eq_none he]
    exact .refl s
  | some e =>
    have hpicture := s.removeEdge_picture key
    rw [removeEdge_of_getElem? he] at hpicture ⊢
    refine ⟨⟨rfl, rfl⟩, fun other shape h => ?_⟩
    rw [shape?, hpicture, Chart.withoutEdge_edges_getElem?] at h
    split at h
    · simp at h
    · exact h

/-- Removing a node is quiet, and so its record stays too. -/
theorem removeNode_quiet (id : String) : Quiet s (s.removeNode id) := by
  rw [removeNode]
  split
  · exact .refl s
  · rename_i n _
    have hedges : Quiet s (n.edgeKeys.foldl removeEdge s) := Quiet.foldl removeEdge_quiet _ s
    exact ⟨⟨hedges.store, hedges.edits⟩, hedges.shape?⟩

end Removal

variable [Scalar α] (s : ChartStage α)

/-- Changing a node on the chart is quiet. Only a commit records it. -/
theorem modifyNode_quiet (id : String) (f : NodeItem α → NodeItem α) :
    Quiet s (s.modifyNode id f).state := by
  rw [modifyNode]
  cases s.picture.nodes[id]? with
  | none => exact .refl s
  | some n =>
    dsimp only
    rw [set_drawNode]
    exact ⟨⟨rfl, rfl⟩, fun _ _ h => h⟩

/-- Marking an edge as selected is quiet, since its shape stays. -/
theorem markEdge_quiet (key : String) (selected : Bool) : Quiet s (s.markEdge key selected).state := by
  rw [markEdge]
  cases he : s.picture.edges[key]? with
  | none => exact .refl s
  | some e =>
    dsimp only
    rw [set_drawEdge]
    refine .of_shape?_eq ⟨rfl, rfl⟩ fun other => ?_
    simp only [shape?, Stage.draw_picture, Chart.setEdge_getElem?]
    split
    · rename_i heq
      rw [← heq, he, Option.map_some, Option.map_some]
    · rfl

omit [Scalar α] in
theorem select_quiet (key : Option String) :
    Quiet s (s.set { s.picture with selectedEdge := key }) :=
  ⟨⟨rfl, rfl⟩, fun _ _ h => h⟩

theorem setSelected_quiet (id : String) (selected : Bool) :
    Quiet s (s.setSelected id selected).state := by
  rw [setSelected]
  split
  · split
    · exact .refl s
    · exact s.modifyNode_quiet id _
  · exact .refl s

theorem clearSelection_quiet : Quiet s s.clearSelection.state :=
  Outcome.forEach_state (P := Quiet s) (fun id _ t ht => ht.trans (t.setSelected_quiet id false)) (.refl s)

theorem deselectEdge_quiet : Quiet s s.deselectEdge.state := by
  rw [deselectEdge]
  split
  · exact .refl s
  · exact Outcome.andThen_state (s.markEdge_quiet _ false) fun t ht => ht.trans (t.select_quiet none)

theorem selectEdge_quiet (key : String) : Quiet s (s.selectEdge key).state := by
  rw [selectEdge]
  split
  · exact .refl s
  · refine Outcome.andThen_state s.deselectEdge_quiet fun t ht => ?_
    split
    · exact ht.trans ((t.select_quiet (some key)).trans (markEdge_quiet _ key true))
    · exact ht

theorem toggleEdge_quiet (key : String) : Quiet s (s.toggleEdge key).state := by
  rw [toggleEdge]
  split
  · exact s.deselectEdge_quiet
  · exact s.selectEdge_quiet key

theorem restyle_quiet : Quiet s s.restyle :=
  Quiet.foldl (fun t id => t.modifyNode_quiet id _) _ s

section Routing

variable {s}

/-- Routing an edge records the control points that it lacks, and on a complete
    chart no edge lacks any. A chart that came about by renders and edits is
    complete. -/
theorem updateEdge_quiet (hs : s.picture.Complete) (key : String) : Quiet s (s.updateEdge key).state := by
  rcases updateEdge_cases s key with ⟨heq, -⟩ | ⟨e, ends, he, -, -, heq⟩
  · rw [heq]
    exact .refl s
  · have hcomplete := hs key e he
    have hshape : (e.routed ends).shape = e.shape :=
      EdgeShape.completed_of_lacksControls_eq_false hcomplete _ _
    rw [heq, Store.routed_of_complete hcomplete]
    refine .of_shape?_eq ⟨rfl, rfl⟩ fun other => ?_
    simp only [shape?, Stage.draw_picture, Chart.setEdge_getElem?]
    split
    · rename_i hkey
      rw [← hkey, he, Option.map_some, Option.map_some, hshape]
    · rfl

theorem updateEdges_quiet (hs : s.picture.Complete) (keys : List String) : Quiet s (s.updateEdges keys) := by
  rw [updateEdges]
  induction keys generalizing s with
  | nil => exact .refl s
  | cons key keys ih =>
    have hfirst := updateEdge_quiet hs key
    exact hfirst.trans (ih (hfirst.complete hs))

/-- Routing the edges at a node of a complete chart is quiet. -/
theorem notifyDependents_quiet (hs : s.picture.Complete) (id : String) :
    Quiet s (s.notifyDependents id) := by
  rw [notifyDependents]
  split
  · exact updateEdges_quiet hs _
  · exact .refl s

/-- Changing a node and routing its edges is quiet on a complete chart. -/
theorem modifyNode_notifyDependents_quiet (hs : s.picture.Complete) (id : String)
    (f : NodeItem α → NodeItem α) :
    Quiet s ((s.modifyNode id f).andThen fun t => .done (t.notifyDependents id)).state :=
  Outcome.andThen_state (P := Quiet s) (s.modifyNode_quiet id f) fun _ ht =>
    ht.trans (notifyDependents_quiet (ht.complete hs) id)

/-- Moving a node records nothing. It is recorded when it is let go. -/
theorem moveNode_quiet (hs : s.picture.Complete) (id : String) (corner : Point α) :
    Quiet s (s.moveNode id corner).state :=
  modifyNode_notifyDependents_quiet hs id _

end Routing

section Commits

variable {s} {id : String} {n : NodeItem α}

/-- A commit records the rectangle that the node has on the chart. -/
theorem commitNode_commits (hn : s.picture.nodes[id]? = some n) :
    Stage.Commits s (s.commitNode id) id n.rect := by
  rw [commitNode, hn]
  exact .commit s id n.rect

@[simp] theorem notifyDependents_nodes (s : ChartStage α) (id : String) :
    (s.notifyDependents id).picture.nodes = s.picture.nodes := by
  rw [notifyDependents]
  split
  · rw [updateEdges_picture, Chart.foldl_rerouted_nodes]
  · rfl

/-- A node that can be drawn is resized, and the rectangle that it then has is
    recorded. A refusal stops the resizing before it is recorded. -/
theorem resizeNode_commits (hs : s.picture.Complete) (haccepts : s.surface.Accepts)
    (hn : s.picture.nodes[id]? = some n) (h : Handle) (step : Point α) :
    ∃ n', (s.resizeNode id h step).state.picture.nodes[id]? = some n' ∧
      Stage.Commits s (s.resizeNode id h step).state id n'.rect := by
  let resized : NodeItem α := { n with rect := n.rect.resize h step Layout.minNodeSize }
  let t : ChartStage α := (s.modifyNode id fun n =>
    { n with rect := n.rect.resize h step Layout.minNodeSize }).state
  have hmodify : s.modifyNode id (fun n => { n with rect := n.rect.resize h step Layout.minNodeSize }) =
      Stage.draw { s with picture := s.picture.setNode id resized } (resized.marks id) := by
    rw [modifyNode, hn]
    exact set_drawNode s id resized
  have hdrawn : (s.modifyNode id fun n =>
      { n with rect := n.rect.resize h step Layout.minNodeSize }).refusal = none := by
    rw [hmodify]
    exact haccepts.draw_refusal (resized.marks id)
  have hstate : (s.resizeNode id h step).state = (t.notifyDependents id).commitNode id := by
    rw [resizeNode, Outcome.andThen_of_refusal_eq_none hdrawn, Outcome.done_state]
  have hnode : (t.notifyDependents id).picture.nodes[id]? = some resized := by
    rw [notifyDependents_nodes]
    simp only [t, hmodify, Stage.draw_picture, Chart.setNode_getElem?, if_true]
  have hquiet : Quiet s (t.notifyDependents id) :=
    (s.modifyNode_quiet id _).trans (notifyDependents_quiet ((s.modifyNode_quiet id _).complete hs) id)
  refine ⟨resized, ?_, ?_⟩
  · rw [hstate, commitNode_picture, hnode]
  · rw [hstate]
    exact .of_sameRecords hquiet.toSameRecords (commitNode_commits hnode)

end Commits

end ChartStage

end LiveDiagram
