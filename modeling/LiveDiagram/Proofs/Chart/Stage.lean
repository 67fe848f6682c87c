import LiveDiagram.Chart.Edit
import LiveDiagram.Proofs.Chart.Routing

namespace LiveDiagram

variable {α : Type}

namespace ChartStage

section Removal

variable (s : ChartStage α)

/-- An edge that is there is taken off the chart, and its parts are erased. -/
theorem removeEdge_of_getElem? {s : ChartStage α} {key : String} {e : EdgeItem α}
    (he : s.picture.edges[key]? = some e) :
    s.removeEdge key =
      Stage.eraseParts { s with picture := s.picture.withoutEdge key } (EdgeItem.partIds key) := by
  unfold removeEdge Chart.withoutEdge
  rw [he]
  rfl

theorem removeEdge_of_getElem?_eq_none {s : ChartStage α} {key : String}
    (he : s.picture.edges[key]? = none) : s.removeEdge key = s := by
  unfold removeEdge
  rw [he]

/-- Removing an edge changes the chart as it says, whatever the surface is
    like. -/
theorem removeEdge_picture (key : String) :
    (s.removeEdge key).picture = s.picture.withoutEdge key := by
  cases he : s.picture.edges[key]? with
  | none =>
    rw [removeEdge_of_getElem?_eq_none he]
    unfold Chart.withoutEdge
    rw [he]
  | some e =>
    rw [removeEdge_of_getElem? he]
    rfl

theorem foldl_removeEdge_picture (keys : List String) :
    (keys.foldl removeEdge s).picture = keys.foldl Chart.withoutEdge s.picture := by
  induction keys generalizing s with
  | nil => rfl
  | cons key keys ih => rw [List.foldl_cons, List.foldl_cons, ih, removeEdge_picture]

/-- Removing a node takes it off the chart with its edges. -/
theorem removeNode_picture (id : String) :
    (s.removeNode id).picture = s.picture.withoutNode id := by
  unfold removeNode Chart.withoutNode
  cases s.picture.nodes[id]? with
  | none => rfl
  | some n =>
    have hedges := foldl_removeEdge_picture s n.edgeKeys
    dsimp only [set, Stage.eraseParts]
    rw [hedges]

theorem foldl_removeNode_picture (ids : List String) :
    (ids.foldl removeNode s).picture = ids.foldl Chart.withoutNode s.picture := by
  induction ids generalizing s with
  | nil => rfl
  | cons id ids ih => rw [List.foldl_cons, List.foldl_cons, ih, removeNode_picture]

theorem removeEdge_sameSetup (key : String) : Stage.SameSetup s (s.removeEdge key) := by
  cases he : s.picture.edges[key]? with
  | none =>
    rw [removeEdge_of_getElem?_eq_none he]
    exact Stage.SameSetup.refl s
  | some e =>
    rw [removeEdge_of_getElem? he]
    refine Stage.SameSetup.eraseParts ?_ _
    exact ⟨rfl, rfl, rfl⟩

theorem removeNode_sameSetup (id : String) : Stage.SameSetup s (s.removeNode id) := by
  unfold removeNode
  split
  · exact Stage.SameSetup.refl s
  · rename_i n _
    have hedges := Stage.sameSetup_foldl removeEdge_sameSetup n.edgeKeys s
    have hparts := hedges.eraseParts (NodeItem.partIds id)
    exact ⟨hparts.settings, hparts.measure, hparts.refused⟩

theorem removeEdge_store (key : String) : (s.removeEdge key).store = s.store := by
  unfold removeEdge
  split <;> rfl

theorem foldl_removeEdge_store (keys : List String) :
    (keys.foldl removeEdge s).store = s.store := by
  induction keys generalizing s with
  | nil => rfl
  | cons key keys ih => rw [List.foldl_cons, ih, removeEdge_store]

theorem removeNode_store (id : String) : (s.removeNode id).store = s.store := by
  unfold removeNode
  split
  · rfl
  · exact foldl_removeEdge_store s _

theorem foldl_removeNode_store (ids : List String) : (ids.foldl removeNode s).store = s.store := by
  induction ids generalizing s with
  | nil => rfl
  | cons id ids ih => rw [List.foldl_cons, ih, removeNode_store]

end Removal

end ChartStage

variable [Scalar α]

/-- The store after an edge was routed between two rectangles. A shape that was
    complete is not recorded again. -/
def Store.routed (s : Store α) (e : EdgeItem α) (ends : Rect α × Rect α) : Store α :=
  if e.shape.lacksControls then
    s.updateEdge e.edge.key (e.shape.withControls ends.1 ends.2).toUpdate
  else
    s

namespace ChartStage

section Drawing

variable (s : ChartStage α)

/-- Putting a node and drawing it makes the marks of that node. -/
theorem set_drawNode (id : String) (n : NodeItem α) :
    (s.set (s.picture.setNode id n)).drawNode id =
      Stage.draw { s with picture := s.picture.setNode id n } (n.marks id) := by
  have hn : (s.picture.setNode id n).nodes[id]? = some n := by simp
  unfold drawNode set
  dsimp only
  rw [hn]

/-- Putting an edge and drawing it makes the marks of that edge. -/
theorem set_drawEdge (key : String) (e : EdgeItem α) :
    (s.set (s.picture.setEdge key e)).drawEdge key =
      Stage.draw { s with picture := s.picture.setEdge key e } (e.marks s.measure key) := by
  have he : (s.picture.setEdge key e).edges[key]? = some e := by simp
  unfold drawEdge set
  dsimp only
  rw [he]

end Drawing

section Routing

variable {s : ChartStage α}

/-- An edge with both ends is put as routing leaves it, and drawn. -/
theorem updateEdge_eq {key : String} {e : EdgeItem α} {ends : Rect α × Rect α}
    (he : s.picture.edges[key]? = some e) (hends : s.picture.ends? e.edge = some ends) :
    s.updateEdge key =
      Stage.draw
        { s with
          picture := s.picture.setEdge key (e.routed ends)
          store := s.store.routed e ends }
        ((e.routed ends).marks s.measure key) := by
  unfold updateEdge completeShape Store.routed EdgeItem.routed EdgeShape.completed
  rw [he]
  dsimp only
  rw [hends]
  dsimp only
  split <;> exact set_drawEdge _ key _

/-- An edge that is not there, or lacks an end, is left alone. -/
theorem updateEdge_of_ends? {key : String}
    (hends : ∀ e, s.picture.edges[key]? = some e → s.picture.ends? e.edge = none) :
    s.updateEdge key = .done s := by
  unfold updateEdge
  cases he : s.picture.edges[key]? with
  | none => rfl
  | some e =>
    dsimp only
    rw [hends e he]

/-- What routing an edge does: either nothing, or it puts the routed edge and
    draws it. All else about the routing of edges follows from this. -/
theorem updateEdge_cases (s : ChartStage α) (key : String) :
    (s.updateEdge key = .done s ∧ s.picture.rerouted key = s.picture) ∨
      ∃ e ends, s.picture.edges[key]? = some e ∧ s.picture.ends? e.edge = some ends ∧
        s.picture.reroute e = e.routed ends ∧
        s.updateEdge key =
          Stage.draw
            { s with
              picture := s.picture.setEdge key (e.routed ends)
              store := s.store.routed e ends }
            ((e.routed ends).marks s.measure key) := by
  cases he : s.picture.edges[key]? with
  | none =>
    left
    refine ⟨updateEdge_of_ends? (by simp [he]), ?_⟩
    unfold Chart.rerouted
    rw [he]
  | some e =>
    cases hends : s.picture.ends? e.edge with
    | none =>
      left
      refine ⟨updateEdge_of_ends? ?_, ?_⟩
      · intro f hf
        rw [he] at hf
        cases hf
        exact hends
      · unfold Chart.rerouted Chart.reroute
        rw [he]
        dsimp only
        rw [hends]
        exact Chart.setEdge_self he
    | some ends =>
      right
      exact ⟨e, ends, rfl, hends, Chart.reroute_of_ends? hends, updateEdge_eq he hends⟩

/-- Routing an edge changes the chart in the same way whatever the surface
    refuses: a refusal leaves primitives out and changes nothing else. -/
theorem updateEdge_picture (s : ChartStage α) (key : String) :
    (s.updateEdge key).state.picture = s.picture.rerouted key := by
  rcases updateEdge_cases s key with ⟨heq, hsame⟩ | ⟨e, ends, he, -, hreroute, heq⟩
  · rw [heq, hsame]
    rfl
  · rw [heq, Stage.draw_picture]
    unfold Chart.rerouted
    rw [he]
    dsimp only
    rw [hreroute]

theorem updateEdge_sameSetup (s : ChartStage α) (key : String) :
    Stage.SameSetup s (s.updateEdge key).state := by
  rcases updateEdge_cases s key with ⟨heq, -⟩ | ⟨e, ends, -, -, -, heq⟩
  · rw [heq]
    exact Stage.SameSetup.refl s
  · rw [heq]
    refine Stage.SameSetup.draw ?_ _
    exact ⟨rfl, rfl, rfl⟩

/-- Routing edges changes the chart edge by edge, whatever the surface
    refuses. -/
theorem updateEdges_picture (s : ChartStage α) (keys : List String) :
    (s.updateEdges keys).picture = keys.foldl Chart.rerouted s.picture := by
  unfold updateEdges
  induction keys generalizing s with
  | nil => rfl
  | cons key keys ih => rw [List.foldl_cons, List.foldl_cons, ih, updateEdge_picture]

theorem updateEdges_sameSetup (s : ChartStage α) (keys : List String) :
    Stage.SameSetup s (s.updateEdges keys) :=
  Stage.sameSetup_foldl updateEdge_sameSetup keys s

/-- An edge that is routed already is drawn again, and nothing is recorded. -/
theorem updateEdge_store_of_reroute {key : String}
    (hrouted : ∀ e, s.picture.edges[key]? = some e → s.picture.reroute e = e) :
    (s.updateEdge key).state.store = s.store := by
  rcases updateEdge_cases s key with ⟨heq, -⟩ | ⟨e, ends, he, -, hreroute, heq⟩
  · rw [heq]
    rfl
  · have hcomplete : e.shape.lacksControls = false := by
      rw [← hrouted e he, hreroute]
      exact EdgeShape.lacksControls_completed ..
    rw [heq, Stage.draw_store]
    simp [Store.routed, hcomplete]

end Routing

end ChartStage

end LiveDiagram
