import Mathlib.Data.List.Nodup
import LiveDiagram.Proofs.Chart.Step
import LiveDiagram.Proofs.Surface.PartIds
import LiveDiagram.Proofs.Surface.Scene

namespace LiveDiagram

/-- Ids without colons, from which the endings of parts can be told apart. -/
def ColonFree (id : String) : Prop :=
  ':' ∉ id.toList

instance (id : String) : Decidable (ColonFree id) :=
  inferInstanceAs (Decidable (_ ∉ _))

variable {α : Type} [Scalar α]

theorem NodeItem.ids_marks (id : String) (n : NodeItem α) : Mark.ids (n.marks id) = partIds id := by
  simp [Mark.ids, marks, partIds, Handle.all, Mark.id]

/-- The marks of an edge are the parts of the edge. -/
theorem EdgeItem.ids_marks (measure : Measure α) (key : String) (e : EdgeItem α) :
    Mark.ids (e.marks measure key) = partIds key := by
  unfold marks partIds Mark.ids
  cases e.edge.kind with
  | arrow => by_cases hlabel : e.edge.label.isEmpty <;> simp [EdgePoint.all, Mark.id, hlabel]
  | bidirectional => by_cases hlabel : e.edge.label.isEmpty <;> simp [EdgePoint.all, Mark.id, hlabel]

@[simp] theorem NodeItem.marks_bare (id : String) (n : NodeItem α) : n.bare.marks id = n.marks id :=
  rfl

namespace Chart

/-- What there is to draw of a chart: the marks of each node and of each edge,
    which are the owners in its scene. -/
inductive Scene (measure : Measure α) (c : Chart α) : List (Mark α) → Prop
  | node {id : String} {n : NodeItem α} (hn : c.bare? id = some n) : Scene measure c (n.marks id)
  | edge {key : String} {e : EdgeItem α} (he : c.edges[key]? = some e) :
      Scene measure c (e.marks measure key)

/-- The scene of a chart is seen at its edges and its nodes without their
    lists. -/
theorem Scene.congr {measure : Measure α} {c c' : Chart α} {marks : List (Mark α)}
    (h : c.Scene measure marks) (hbare : ∀ id, c'.bare? id = c.bare? id)
    (hedges : ∀ key : String, c'.edges[key]? = c.edges[key]?) : c'.Scene measure marks := by
  cases h with
  | @node id n hn => exact .node ((hbare id).trans hn)
  | @edge key e he => exact .edge ((hedges key).trans he)

/-- The marks of all nodes, and then those of all edges. -/
def owners (measure : Measure α) (c : Chart α) : List (List (Mark α)) :=
  (c.nodes.toList.map fun p => p.2.marks p.1) ++ c.edges.toList.map fun p => p.2.marks measure p.1

/-- The surface that drawing the chart afresh gives. -/
def drawn (measure : Measure α) (c : Chart α) : Surface α :=
  (Surface.draw {} (c.owners measure).flatten).1

end Chart

namespace ChartStage

/-- The surface shows the chart and nothing else, and refuses nothing. The ids
    of nodes have no colons, so that no part of one owner has the id of a part
    of another one. -/
structure InSync (s : ChartStage α) : Prop where
  accepts : s.surface.Accepts
  named : s.Named ColonFree
  depicts : s.surface.Depicts (s.picture.Scene s.measure)

omit [Scalar α] in
theorem Named.colonFree {s : ChartStage α} (hs : s.Named ColonFree) {id : String} {n : NodeItem α}
    (hn : s.picture.bare? id = some n) : ColonFree id :=
  hs id (Chart.mem_nodes_iff.mpr (by rw [hn]; rfl))

variable {s t : ChartStage α}

/-- Putting a node and drawing it keeps the surface a depiction. An old node
    under that id has the same parts as the new one, so nothing of it is
    left. -/
theorem InSync.putNode (hs : s.InSync) {id : String} (hid : ColonFree id) (n : NodeItem α) :
    (s.surface.draw (n.marks id)).1.Depicts ((s.picture.setNode id n).Scene s.measure) := by
  refine hs.depicts.draw hs.accepts ?_ ?_ ?_ ?_
  · exact NodeItem.ids_marks id n ▸ NodeItem.nodup_partIds id
  · exact .node (n := n.bare) (by simp [Chart.setNode_bare?])
  · intro other hother
    rw [NodeItem.ids_marks]
    cases hother with
    | @node id' m hm =>
      rw [Chart.setNode_bare?] at hm
      split at hm
      · rename_i heq
        cases hm
        exact .inl (heq ▸ rfl)
      · rename_i hne
        refine .inr ⟨.node hm, fun name hname hname' => hne ?_⟩
        rw [NodeItem.ids_marks] at hname
        exact NodeItem.eq_of_mem_partIds hid (hs.named.colonFree hm) hname' hname
    | edge he =>
      refine .inr ⟨.edge he, fun name hname => ?_⟩
      rw [EdgeItem.ids_marks] at hname
      exact EdgeItem.not_mem_partIds_node hname
  · intro other hother
    cases hother with
    | @node id' m hm =>
      by_cases heq : id = id'
      · subst heq
        left
        rw [NodeItem.ids_marks, NodeItem.ids_marks]
        exact fun _ h => h
      · right
        exact .node ((Chart.setNode_bare? ..).trans (by rw [if_neg heq]; exact hm))
    | edge he => exact .inr (.edge he)

/-- Putting an edge on a chart with the same nodes, apart from which edges they
    list, and drawing it keeps the surface a depiction. -/
theorem InSync.putEdge (hs : s.InSync) {c : Chart α} {key : String} {e : EdgeItem α}
    (hbare : ∀ id, c.bare? id = s.picture.bare? id)
    (hedges : ∀ other, c.edges[other]? = if key = other then some e else s.picture.edges[other]?) :
    (s.surface.draw (e.marks s.measure key)).1.Depicts (c.Scene s.measure) := by
  refine hs.depicts.draw hs.accepts ?_ ?_ ?_ ?_
  · exact EdgeItem.ids_marks s.measure key e ▸ EdgeItem.nodup_partIds key
  · exact .edge (by simp [hedges])
  · intro other hother
    rw [EdgeItem.ids_marks]
    cases hother with
    | node hn =>
      refine .inr ⟨.node (hbare _ ▸ hn), fun name hname hname' => ?_⟩
      rw [NodeItem.ids_marks] at hname
      exact EdgeItem.not_mem_partIds_node hname' hname
    | @edge key' f hf =>
      rw [hedges] at hf
      split at hf
      · rename_i heq
        cases hf
        exact .inl (heq ▸ rfl)
      · rename_i hne
        refine .inr ⟨.edge hf, fun name hname hname' => hne ?_⟩
        rw [EdgeItem.ids_marks] at hname
        exact EdgeItem.eq_of_mem_partIds hname' hname
  · intro other hother
    cases hother with
    | node hn => exact .inr (.node ((hbare _).trans hn))
    | @edge key' f hf =>
      by_cases heq : key = key'
      · subst heq
        left
        rw [EdgeItem.ids_marks, EdgeItem.ids_marks]
        exact fun _ h => h
      · right
        exact .edge ((hedges key').trans (by rw [if_neg heq]; exact hf))

/-- Erasing an edge that is removed keeps the surface in sync. Its parts are
    those of no other owner. -/
theorem InSync.removeEdge (hs : s.InSync) (key : String) : (s.removeEdge key).InSync := by
  have hnamed := (Step.removeEdge (P := ColonFree) s key).named hs.named
  have hsetup := removeEdge_sameSetup s key
  refine ⟨hsetup.accepts hs.accepts, hnamed, ?_⟩
  rw [hsetup.measure, removeEdge_picture]
  cases he : s.picture.edges[key]? with
  | none =>
    rw [removeEdge_of_getElem?_eq_none he]
    unfold Chart.withoutEdge
    rw [he]
    exact hs.depicts
  | some e =>
    rw [removeEdge_of_getElem? he]
    refine hs.depicts.erase ?_ ?_
    · intro other hother
      cases hother with
      | node hn =>
        rw [Chart.withoutEdge_bare?] at hn
        refine ⟨.node hn, fun name hname hname' => ?_⟩
        rw [NodeItem.ids_marks] at hname
        exact EdgeItem.not_mem_partIds_node hname' hname
      | @edge key' f hf =>
        rw [Chart.withoutEdge_edges_getElem?] at hf
        split at hf
        · cases hf
        · rename_i hne
          refine ⟨.edge hf, fun name hname hname' => hne ?_⟩
          rw [EdgeItem.ids_marks] at hname
          exact EdgeItem.eq_of_mem_partIds hname' hname
    · intro other hother
      cases hother with
      | node hn => exact .inr (.node ((Chart.withoutEdge_bare? ..).trans hn))
      | @edge key' f hf =>
        by_cases heq : key = key'
        · subst heq
          left
          rw [EdgeItem.ids_marks]
          exact fun _ h => h
        · right
          refine .edge ?_
          rw [Chart.withoutEdge_edges_getElem?, if_neg heq]
          exact hf

/-- Removing edges one by one keeps the surface in sync. -/
theorem InSync.foldl_removeEdge (hs : s.InSync) (keys : List String) :
    (keys.foldl ChartStage.removeEdge s).InSync := by
  induction keys generalizing s with
  | nil => exact hs
  | cons key keys ih => exact ih (hs.removeEdge key)

/-- Erasing a node that is removed, after its edges, keeps the surface in
    sync. -/
theorem InSync.removeNode (hs : s.InSync) (id : String) : (s.removeNode id).InSync := by
  cases hn : s.picture.nodes[id]? with
  | none =>
    have hsame : s.removeNode id = s := by
      unfold ChartStage.removeNode
      rw [hn]
    rw [hsame]
    exact hs
  | some n =>
    have hid : ColonFree id := hs.named.colonFree (Chart.bare?_of_getElem? hn)
    have hnamed := (Step.removeNode (P := ColonFree) s id).named hs.named
    have hsetup := removeNode_sameSetup s id
    have hedges := hs.foldl_removeEdge n.edgeKeys
    have hmeasure := Stage.sameSetup_foldl ChartStage.removeEdge_sameSetup n.edgeKeys s
    have hbare : ∀ other, (s.removeNode id).picture.bare? other =
        if id = other then none else (n.edgeKeys.foldl ChartStage.removeEdge s).picture.bare? other := by
      intro other
      rw [removeNode_picture, Chart.withoutNode_bare?, foldl_removeEdge_picture,
        Chart.foldl_withoutEdge_bare?]
    have hkept : (s.removeNode id).picture.edges =
        (n.edgeKeys.foldl ChartStage.removeEdge s).picture.edges := by
      unfold ChartStage.removeNode
      rw [hn]
      rfl
    have hsurface : (s.removeNode id).surface =
        (NodeItem.partIds id).foldl Surface.erase
          (n.edgeKeys.foldl ChartStage.removeEdge s).surface := by
      unfold ChartStage.removeNode
      rw [hn]
      rfl
    refine ⟨hsetup.accepts hs.accepts, hnamed, ?_⟩
    rw [hsurface, hsetup.measure, ← hmeasure.measure]
    refine hedges.depicts.erase ?_ ?_
    · intro other hother
      cases hother with
      | @node id' m hm =>
        rw [hbare] at hm
        split at hm
        · cases hm
        · rename_i hne
          refine ⟨.node hm, fun name hname hname' => hne ?_⟩
          rw [NodeItem.ids_marks] at hname
          exact NodeItem.eq_of_mem_partIds hid (hedges.named.colonFree hm) hname' hname
      | edge he =>
        rw [hkept] at he
        refine ⟨.edge he, fun name hname => ?_⟩
        rw [EdgeItem.ids_marks] at hname
        exact EdgeItem.not_mem_partIds_node hname
    · intro other hother
      cases hother with
      | @node id' m hm =>
        by_cases heq : id = id'
        · subst heq
          left
          rw [NodeItem.ids_marks]
          exact fun _ h => h
        · right
          refine .node ?_
          rw [hbare, if_neg heq]
          exact hm
      | edge he => exact .inr (.edge (hkept ▸ he))

/-- Elementary changes keep a surface in sync with its chart: they draw what
    they change and erase what they remove. -/
theorem Step.inSync (h : Step ColonFree s t) (hs : s.InSync) : t.InSync := by
  have hnamed := h.named hs.named
  have haccepts := h.sameSetup.accepts hs.accepts
  cases h with
  | record store edits => exact ⟨haccepts, hnamed, hs.depicts⟩
  | select key =>
    exact ⟨haccepts, hnamed, hs.depicts.congr (fun _ =>
      ⟨fun h => h.congr (fun _ => rfl) fun _ => rfl, fun h => h.congr (fun _ => rfl) fun _ => rfl⟩) rfl⟩
  | node hn hkeys hstyle =>
    exact ⟨haccepts, hnamed, hs.putNode (hs.named.colonFree (Chart.bare?_of_getElem? hn)) _⟩
  | addNode hid hname hkeys hstyle => exact ⟨haccepts, hnamed, hs.putNode hname _⟩
  | edge he hedge hcomplete =>
    exact ⟨haccepts, hnamed, hs.putEdge (fun _ => rfl) (Chart.setEdge_getElem? _ _ · _)⟩
  | @addEdge e hkey hends hcomplete =>
    refine ⟨haccepts, hnamed, hs.putEdge (Chart.joined_bare? s.picture e.edge) fun other => ?_⟩
    rw [Stage.draw_picture, Chart.setEdge_getElem?, Chart.joined_edges]
  | removeEdge key => exact hs.removeEdge key
  | removeNode id => exact hs.removeNode id

/-- A sequence of elementary changes keeps a surface in sync with its chart. -/
theorem Steps.inSync (h : Steps ColonFree s t) (hs : s.InSync) : t.InSync :=
  h.induction (fun _ _ hstep => hstep.inSync) hs

end ChartStage

end LiveDiagram
