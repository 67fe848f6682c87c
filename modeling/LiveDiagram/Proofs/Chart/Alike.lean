import LiveDiagram.Proofs.Chart.Render
import LiveDiagram.Proofs.Stage.Alike

namespace LiveDiagram

variable {α : Type} [Scalar α]

/-- Which store an edge is routed with is seen in what it records only. -/
theorem Store.routed_positions {s t : Store α} (h : t.positions = s.positions) (e : EdgeItem α)
    (ends : Rect α × Rect α) : (t.routed e ends).positions = (s.routed e ends).positions := by
  unfold routed
  split
  · rw [positions_updateEdge, positions_updateEdge, h]
  · exact h

namespace ChartStage

open Stage

variable {s t : ChartStage α}

theorem alike_removeEdge (h : Alike s t) (key : String) : Alike (s.removeEdge key) (t.removeEdge key) := by
  cases he : s.picture.edges[key]? with
  | none =>
    have he' : t.picture.edges[key]? = none := by rw [h.picture, he]
    rwa [removeEdge_of_getElem?_eq_none he, removeEdge_of_getElem?_eq_none he']
  | some e =>
    have he' : t.picture.edges[key]? = some e := by rw [h.picture, he]
    rw [removeEdge_of_getElem? he, removeEdge_of_getElem? he']
    exact (h.mapPicture fun c => c.withoutEdge key).eraseParts _

/-- Removing a node with its edges leaves stages alike. -/
theorem alike_removeNode (h : Alike s t) (id : String) : Alike (s.removeNode id) (t.removeNode id) := by
  unfold removeNode
  rw [h.picture]
  split
  · exact h
  · rename_i n _
    have hedges : Alike (n.edgeKeys.foldl removeEdge s) (n.edgeKeys.foldl removeEdge t) :=
      h.foldl (fun key _ _ h => alike_removeEdge h key) n.edgeKeys
    exact (hedges.eraseParts (NodeItem.partIds id)).mapPicture
      fun c => { c with nodes := c.nodes.erase id }

/-- Placing a node leaves stages alike. Both ask the recorded positions for its
    rectangle, and these are the same. -/
theorem alike_placeNode (h : Alike s t) (spec : Node) (index : Nat) :
    Alike (s.placeNode spec index).state (t.placeNode spec index).state := by
  have hplaced : t.placedAs = s.placedAs := by
    funext before i spec
    simp only [placedAs, initialRect, styleFor, h.picture, h.settings, h.node?]
  have hstore : (if spec.id ∈ t.picture.nodes then t.store else t.store.load).positions =
      (if spec.id ∈ s.picture.nodes then s.store else s.store.load).positions := by
    rw [h.picture]
    split
    · exact h.positions
    · exact h.positions_load
  rw [placeNode_eq, placeNode_eq, hplaced]
  exact ((h.update (by rw [h.picture]) hstore).draw (by rw [h.picture])).state

/-- Routing an edge leaves stages alike. What is drawn of it depends on the
    measure and not on the surface, so both surfaces take the same marks. -/
theorem alike_updateEdge (h : Alike s t) (key : String) :
    Alike (s.updateEdge key).state (t.updateEdge key).state := by
  by_cases hends : ∃ e ends, s.picture.edges[key]? = some e ∧ s.picture.ends? e.edge = some ends
  · obtain ⟨e, ends, he, hends⟩ := hends
    have he' : t.picture.edges[key]? = some e := by rw [h.picture, he]
    have hends' : t.picture.ends? e.edge = some ends := by rw [h.picture, hends]
    have hstore := Store.routed_positions h.positions e ends
    rw [updateEdge_eq he hends, updateEdge_eq he' hends']
    exact ((h.update (by rw [h.picture]) hstore).draw (by rw [h.measure])).state
  · have hnone : ∀ e, s.picture.edges[key]? = some e → s.picture.ends? e.edge = none := by
      intro e he
      rw [Option.eq_none_iff_forall_ne_some]
      exact fun ends hsome => hends ⟨e, ends, he, hsome⟩
    have hnone' : ∀ e, t.picture.edges[key]? = some e → t.picture.ends? e.edge = none := by
      rw [h.picture]
      exact hnone
    rw [updateEdge_of_ends? hnone, updateEdge_of_ends? hnone']
    exact h

/-- Placing an edge leaves stages alike. Each store records the edge as routed
    from what it had recorded of it, which is the same in both. -/
theorem alike_placeEdge (h : Alike s t) (spec : Edge) : Alike (s.placeEdge spec) (t.placeEdge spec) := by
  unfold placeEdge
  rw [h.picture]
  split
  · exact h
  · split
    · rename_i source target hends
      have hends' : t.picture.ends? spec = some (source, target) := by rw [h.picture, hends]
      have hcreate := createEdge_eq hends
      have hcreate' := createEdge_eq hends'
      have hedge : t.newEdge spec (source, target) = s.newEdge spec (source, target) := by
        simp only [newEdge, h.edge?]
      have hstore : (t.storeWithEdge spec (source, target)).positions =
          (s.storeWithEdge spec (source, target)).positions := by
        unfold storeWithEdge
        rw [h.edge?]
        exact Store.routed_positions h.positions_load _ _
      dsimp only at hcreate hcreate'
      rw [hcreate, hcreate', hedge]
      exact ((h.update (by rw [h.picture]) hstore).draw (by rw [h.measure])).state
    · exact h

/-- Stages that are alike are alike when the same flowchart was rendered on
    both. A render reads the chart, the recorded positions, the settings and the
    measure, and nothing else of a stage. In particular it is neither seen how
    often a store was saved nor what it would do next. -/
theorem alike_render (h : Alike s t) (d : Flowchart) : Alike (s.render d) (t.render d) := by
  have hstart := h.mapPicture fun c => { c with classes := d.classes, direction := d.direction }
  have hpruned : Alike (s.pruned d) (t.pruned d) := by
    unfold pruned removeStaleNodes
    dsimp only [set]
    rw [h.picture]
    rw [h.picture] at hstart
    exact hstart.foldl (fun id _ _ h => alike_removeNode h id) _
  have hpopulated : Alike (s.populated d) (t.populated d) :=
    hpruned.foldl (fun p _ _ h => alike_placeNode h p.1 p.2) d.nodes.zipIdx
  have hconnected : Alike (s.connected d) (t.connected d) :=
    hpopulated.foldl (fun spec _ _ h => alike_placeEdge h spec) (distinctEdges d.edges)
  have htrimmed : Alike (s.trimmed d) (t.trimmed d) := by
    unfold trimmed removeStaleEdges
    rw [hconnected.picture]
    exact hconnected.foldl (fun key _ _ h => alike_removeEdge h key) _
  rw [render_eq, render_eq, htrimmed.picture]
  exact htrimmed.foldl (fun key _ _ h => alike_updateEdge h key) _

end ChartStage

end LiveDiagram
