import LiveDiagram.Proofs.Chart.Render
import LiveDiagram.Proofs.Chart.Scene
import LiveDiagram.Proofs.Stage.Refusals

namespace LiveDiagram

variable {α : Type}

/-- The id is refused, or names a part of a node of the flowchart or of an edge
    of which a part is refused. Such a node or edge is left half drawn, and
    drawn again by later passes of a render. -/
def Flowchart.Torn (d : Flowchart) (refused : List String) (name : String) : Prop :=
  name ∈ refused ∨
    (∃ id ∈ d.nodeIds, name ∈ NodeItem.partIds id ∧ ∃ part ∈ NodeItem.partIds id, part ∈ refused) ∨
    ∃ key, name ∈ EdgeItem.partIds key ∧ ∃ part ∈ EdgeItem.partIds key, part ∈ refused

namespace Flowchart

variable {d : Flowchart} {refused : List String}

/-- A node of which no part is refused shares no id with one that is torn. Ids
    with a colon are excluded, because one of them can name a part of another
    node. -/
theorem not_torn_of_node (hd : ∀ id ∈ d.nodeIds, ColonFree id) {id : String} (hid : id ∈ d.nodeIds)
    (hwhole : ∀ part ∈ NodeItem.partIds id, part ∉ refused) {name : String}
    (hname : name ∈ NodeItem.partIds id) : ¬ d.Torn refused name := by
  rintro (hrefused | ⟨other, hother, hpart, part, hmem, hrefused⟩ | ⟨key, hpart, -⟩)
  · exact hwhole name hname hrefused
  · have heq : id = other := NodeItem.eq_of_mem_partIds (hd id hid) (hd other hother) hname hpart
    subst heq
    exact hwhole part hmem hrefused
  · exact EdgeItem.not_mem_partIds_node hpart hname

/-- An edge of which no part is refused shares no id with a node or an edge that
    is torn. -/
theorem not_torn_of_edge {key : String} (hwhole : ∀ part ∈ EdgeItem.partIds key, part ∉ refused)
    {name : String} (hname : name ∈ EdgeItem.partIds key) : ¬ d.Torn refused name := by
  rintro (hrefused | ⟨id, -, hpart, -⟩ | ⟨other, hpart, part, hmem, hrefused⟩)
  · exact hwhole name hname hrefused
  · exact EdgeItem.not_mem_partIds_node hname hpart
  · have heq : key = other := EdgeItem.eq_of_mem_partIds hname hpart
    subst heq
    exact hwhole part hmem hrefused

/-- The parts of a node of the flowchart are torn together. -/
theorem tornTogether_node (hd : ∀ id ∈ d.nodeIds, ColonFree id) {id : String} (hid : id ∈ d.nodeIds) :
    TornTogether (d.Torn refused) (NodeItem.partIds id) := by
  by_cases hpart : ∃ part ∈ NodeItem.partIds id, part ∈ refused
  · exact .inr fun name hname => .inr (.inl ⟨id, hid, hname, hpart⟩)
  · push Not at hpart
    exact .inl fun name hname => not_torn_of_node hd hid hpart hname

theorem tornTogether_edge (key : String) :
    TornTogether (d.Torn refused) (EdgeItem.partIds key) := by
  by_cases hpart : ∃ part ∈ EdgeItem.partIds key, part ∈ refused
  · exact .inr fun name hname => .inr (.inr ⟨key, hname, hpart⟩)
  · push Not at hpart
    exact .inl fun name hname => not_torn_of_edge hpart hname

end Flowchart

namespace ChartStage

open Stage

variable {torn : String → Prop} {s t : ChartStage α}

/-- Removing an edge leaves stages that refuse different ids in agreement, since
    nothing refuses an erasure. -/
theorem agreeBut_removeEdge (h : AgreeBut torn s t) (key : String) :
    AgreeBut torn (s.removeEdge key) (t.removeEdge key) := by
  cases he : s.picture.edges[key]? with
  | none =>
    have he' : t.picture.edges[key]? = none := by rw [h.picture, he]
    rwa [removeEdge_of_getElem?_eq_none he, removeEdge_of_getElem?_eq_none he']
  | some e =>
    have he' : t.picture.edges[key]? = some e := by rw [h.picture, he]
    rw [removeEdge_of_getElem? he, removeEdge_of_getElem? he']
    exact (h.mapPicture fun c => c.withoutEdge key).eraseParts _

/-- Removing a node with its edges leaves stages that refuse different ids in
    agreement. -/
theorem agreeBut_removeNode (h : AgreeBut torn s t) (id : String) :
    AgreeBut torn (s.removeNode id) (t.removeNode id) := by
  unfold removeNode
  rw [h.picture]
  split
  · exact h
  · rename_i n _
    have hedges : AgreeBut torn (n.edgeKeys.foldl removeEdge s) (n.edgeKeys.foldl removeEdge t) :=
      h.foldl fun key _ _ _ h => agreeBut_removeEdge h key
    exact (hedges.eraseParts (NodeItem.partIds id)).mapPicture
      fun c => { c with nodes := c.nodes.erase id }

variable [Scalar α]

/-- A render leaves the nodes of the flowchart and no others, whatever is
    refused. -/
theorem mem_render_nodes {d : Flowchart} {id : String} :
    id ∈ (s.render d).picture.nodes ↔ id ∈ d.nodeIds := by
  rw [Chart.mem_nodes_iff, render_bare?, Option.isSome_map, Flowchart.lastNode?_isSome]

/-- A node is placed alike on both stages, if it is torn as a whole or not at
    all. A refusal stops the drawing only after the chart has the node. -/
theorem agreeBut_placeNode (h : AgreeBut torn s t) {spec : Node} (index : Nat)
    (htorn : TornTogether torn (NodeItem.partIds spec.id)) :
    AgreeBut torn (s.placeNode spec index).state (t.placeNode spec index).state := by
  obtain ⟨⟨surface, rfl⟩, hsurface⟩ := h
  rw [placeNode_eq, placeNode_eq]
  refine AgreeBut.draw ?_ ?_
  · exact ⟨⟨surface, rfl⟩, hsurface⟩
  · rwa [NodeItem.ids_marks]

/-- An edge is routed alike on both stages, if it is torn as a whole or not at
    all. -/
theorem agreeBut_updateEdge (hparts : ∀ key, TornTogether torn (EdgeItem.partIds key))
    (h : AgreeBut torn s t) (key : String) :
    AgreeBut torn (s.updateEdge key).state (t.updateEdge key).state := by
  obtain ⟨⟨surface, rfl⟩, hsurface⟩ := h
  by_cases hends : ∃ e ends, s.picture.edges[key]? = some e ∧ s.picture.ends? e.edge = some ends
  · obtain ⟨e, ends, he, hends⟩ := hends
    rw [updateEdge_eq he hends, updateEdge_eq (s := { s with surface }) he hends]
    refine AgreeBut.draw ?_ ?_
    · exact ⟨⟨surface, rfl⟩, hsurface⟩
    · rw [EdgeItem.ids_marks]
      exact hparts key
  · have hnone : ∀ e, s.picture.edges[key]? = some e → s.picture.ends? e.edge = none := by
      intro e he
      rw [Option.eq_none_iff_forall_ne_some]
      exact fun ends hsome => hends ⟨e, ends, he, hsome⟩
    rw [updateEdge_of_ends? hnone, updateEdge_of_ends? (s := { s with surface }) hnone]
    exact ⟨⟨surface, rfl⟩, hsurface⟩

/-- An edge is placed alike on both stages, if every edge is torn as a whole or
    not at all. -/
theorem agreeBut_placeEdge (hparts : ∀ key, TornTogether torn (EdgeItem.partIds key))
    (h : AgreeBut torn s t) (spec : Edge) : AgreeBut torn (s.placeEdge spec) (t.placeEdge spec) := by
  unfold placeEdge
  rw [h.picture]
  split
  · exact h
  · split
    · rename_i source target hends
      have hends' : t.picture.ends? spec = some (source, target) := by rw [h.picture, hends]
      obtain ⟨⟨surface, rfl⟩, hsurface⟩ := h
      have hcreate := createEdge_eq hends
      have hcreate' := createEdge_eq hends'
      dsimp only at hcreate hcreate'
      rw [hcreate, hcreate']
      refine AgreeBut.draw ?_ ?_
      · exact ⟨⟨surface, rfl⟩, hsurface⟩
      · rw [EdgeItem.ids_marks]
        exact hparts spec.key
    · exact h

/-- Stages that agree but at torn ids still do when the same flowchart was
    rendered on both, if each node of the flowchart and each edge is torn as a
    whole. So a refusal changes neither the chart nor the store, and on the
    surface it is seen at the node or the edge that has the refused part. -/
theorem agreeBut_render (h : AgreeBut torn s t) {d : Flowchart}
    (hnodes : ∀ id ∈ d.nodeIds, TornTogether torn (NodeItem.partIds id))
    (hedges : ∀ key, TornTogether torn (EdgeItem.partIds key)) :
    AgreeBut torn (s.render d) (t.render d) := by
  have hstart := h.mapPicture fun c => { c with classes := d.classes, direction := d.direction }
  have hpruned : AgreeBut torn (s.pruned d) (t.pruned d) := by
    unfold pruned removeStaleNodes
    dsimp only [set]
    rw [h.picture]
    rw [h.picture] at hstart
    exact hstart.foldl fun id _ _ _ h => agreeBut_removeNode h id
  have hpopulated : AgreeBut torn (s.populated d) (t.populated d) := by
    refine hpruned.foldl fun p hp _ _ h => agreeBut_placeNode h p.2 (hnodes _ ?_)
    exact List.mem_map_of_mem (List.fst_mem_of_mem_zipIdx hp)
  have hconnected : AgreeBut torn (s.connected d) (t.connected d) :=
    hpopulated.foldl fun spec _ _ _ h => agreeBut_placeEdge hedges h spec
  have htrimmed : AgreeBut torn (s.trimmed d) (t.trimmed d) := by
    unfold trimmed removeStaleEdges
    rw [hconnected.picture]
    exact hconnected.foldl fun key _ _ _ h => agreeBut_removeEdge h key
  rw [render_eq, render_eq, htrimmed.picture]
  exact htrimmed.foldl fun key _ _ _ h => agreeBut_updateEdge hedges h key

end ChartStage

end LiveDiagram
