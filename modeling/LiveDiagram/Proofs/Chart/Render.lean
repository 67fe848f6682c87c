import LiveDiagram.Proofs.Chart.Joining
import LiveDiagram.Proofs.Flowchart.Declared
import LiveDiagram.Proofs.Source.Keys

namespace LiveDiagram

variable {α : Type}

namespace ChartStage

section Pruned

variable (s : ChartStage α) (d : Flowchart)

/-- The stage without the nodes that the flowchart does not have, and with its
    classes and direction. This is what a render does first. -/
def pruned : ChartStage α :=
  (s.set { s.picture with classes := d.classes, direction := d.direction }).removeStaleNodes d

/-- The ids of the nodes that the flowchart does not have. -/
def staleNodes (d : Flowchart) : List String :=
  s.picture.nodes.keys.filter fun id => !d.nodes.any fun n => n.id == id

/-- A node is stale if it is on the chart and not in the flowchart. -/
theorem mem_staleNodes {id : String} :
    id ∈ s.staleNodes d ↔ id ∈ s.picture.nodes ∧ id ∉ d.nodeIds := by
  simp [staleNodes, Flowchart.nodeIds]

/-- The stale nodes are taken off one by one, with their edges. -/
theorem pruned_picture :
    (s.pruned d).picture = (s.staleNodes d).foldl Chart.withoutNode
      { s.picture with classes := d.classes, direction := d.direction } :=
  foldl_removeNode_picture _ _

theorem pruned_sameSetup : Stage.SameSetup s (s.pruned d) :=
  Stage.SameSetup.trans (t := s.set { s.picture with classes := d.classes, direction := d.direction })
    ⟨rfl, rfl, rfl⟩ (Stage.sameSetup_foldl removeNode_sameSetup _ _)

@[simp] theorem pruned_store : (s.pruned d).store = s.store :=
  foldl_removeNode_store _ _

@[simp] theorem pruned_classes : (s.pruned d).picture.classes = d.classes := by
  rw [pruned_picture, Chart.foldl_withoutNode_classes]

@[simp] theorem pruned_direction : (s.pruned d).picture.direction = d.direction := by
  rw [pruned_picture, Chart.foldl_withoutNode_direction]

/-- The nodes that are left are those that the flowchart has, and they are as
    they were. -/
theorem pruned_bare? (id : String) :
    (s.pruned d).picture.bare? id = if id ∈ d.nodeIds then s.picture.bare? id else none := by
  rw [pruned_picture, Chart.foldl_withoutNode_bare?]
  have hbare : ({ s.picture with classes := d.classes, direction := d.direction } : Chart α).bare? id =
    s.picture.bare? id := rfl
  rw [hbare]
  by_cases hid : id ∈ d.nodeIds
  · simp [mem_staleNodes, hid]
  · rw [if_neg hid]
    split
    · rfl
    · rename_i hstale
      rw [Chart.bare?_eq_none_iff]
      apply Std.ExtTreeMap.getElem?_eq_none
      intro hmem
      exact hstale ((mem_staleNodes s d).mpr ⟨hmem, hid⟩)

end Pruned

variable [Scalar α]

section Passes

variable (s : ChartStage α) (d : Flowchart)

/-- The pruned stage with the nodes of the flowchart placed, which is what a
    render does next. -/
def populated : ChartStage α :=
  (s.pruned d).placeNodes d

/-- The populated stage with the edges of the flowchart placed. -/
def connected : ChartStage α :=
  (s.populated d).placeEdges (distinctEdges d.edges)

/-- The connected stage without the edges that the flowchart does not have. -/
def trimmed : ChartStage α :=
  (s.connected d).removeStaleEdges (distinctEdges d.edges)

theorem render_eq :
    s.render d = (s.trimmed d).updateEdges (s.trimmed d).picture.edges.keys :=
  rfl

/-- The style of a node under the settings of the stage and the classes of the
    flowchart. -/
theorem pruned_styleFor (className : Option String) :
    (s.pruned d).styleFor className =
      NodeStyle.resolve s.settings (className.bind fun name => d.classes[name]?) := by
  unfold styleFor
  rw [pruned_classes, (s.pruned_sameSetup d).settings]

/-- A new node stands at its recorded place, or else at the place of that
    index. -/
theorem pruned_initialRect (id : String) (index : Nat) :
    (s.pruned d).initialRect id index =
      match s.store.node? id with
      | some r => recordedRect r
      | none => Layout.nodeRect index d.direction := by
  cases hnode : s.store.node? id <;>
    simp only [initialRect, pruned_store, pruned_direction, hnode]

/-- The node as the flowchart states it, on the place that it has or else
    gets. -/
def restated (before : Option (NodeItem α)) (last : Node) : NodeItem α :=
  (s.pruned d).placedAs before (d.firstIndex last.id) last

theorem populated_sameSetup : Stage.SameSetup s (s.populated d) := by
  refine (s.pruned_sameSetup d).trans ?_
  exact Stage.sameSetup_foldl (fun s (p : Node × Nat) => placeNode_sameSetup s p.1 p.2) _ _

/-- After the nodes are placed, the chart has those of the flowchart and no
    others, each as its last declaration states it. -/
theorem populated_bare? (id : String) :
    (s.populated d).picture.bare? id =
      (d.lastNode? id).map fun last => s.restated d (s.picture.bare? id) last := by
  unfold populated placeNodes
  rw [foldl_placeNode_bare?, d.find?_zipIdx, pruned_bare?]
  have hlast := d.find?_reverse_zipIdx id
  by_cases hid : id ∈ d.nodeIds
  · obtain ⟨first, hfirst⟩ := Option.isSome_iff_exists.mp (Flowchart.findNode?_isSome.mpr hid)
    obtain ⟨last, hlast'⟩ := Option.isSome_iff_exists.mp (Flowchart.lastNode?_isSome.mpr hid)
    rw [hlast'] at hlast ⊢
    obtain ⟨p, hp, rfl⟩ := Option.map_eq_some_iff.mp hlast
    rw [hfirst, hp]
    simp only [Option.map_some, if_pos hid, restated, Flowchart.id_of_lastNode? hlast']
  · have hfirst : d.findNode? id = none := by
      rw [← Option.not_isSome_iff_eq_none, Flowchart.findNode?_isSome]
      exact hid
    rw [hfirst, Flowchart.lastNode?_eq_none.mpr hid]
    simp [hid]

private theorem foldl_placeNode_edges (specs : List (Node × Nat)) :
    (specs.foldl (fun s p => (s.placeNode p.1 p.2).state) s).picture.edges = s.picture.edges := by
  induction specs generalizing s with
  | nil => rfl
  | cons p specs ih => rw [List.foldl_cons, ih, placeNode_edges]

@[simp] theorem populated_edges : (s.populated d).picture.edges = (s.pruned d).picture.edges :=
  foldl_placeNode_edges _ _

theorem connected_sameSetup : Stage.SameSetup s (s.connected d) :=
  (s.populated_sameSetup d).trans (placeEdges_sameSetup _ _)

/-- Placing the edges leaves the nodes, but for their lists of edges. -/
theorem connected_bare? (id : String) :
    (s.connected d).picture.bare? id = (s.populated d).picture.bare? id :=
  placeEdges_bare? _ _ id

/-- After the edges are placed, an edge that was left is as it was, and every
    other key has the first edge of the flowchart with that key, if it has both
    nodes. -/
theorem connected_getElem? (key : String) :
    (s.connected d).picture.edges[key]? =
      match (s.pruned d).picture.edges[key]? with
      | some e => some e
      | none => ((distinctEdges d.edges).find? fun e => e.key == key).bind fun spec =>
          ((s.populated d).picture.ends? spec).map fun ends => (s.populated d).newEdge spec ends := by
  unfold connected
  rw [placeEdges_getElem? _ (nodup_map_key_distinctEdges d.edges)]
  cases hbefore : (s.pruned d).picture.edges[key]? <;> simp only [populated_edges, hbefore]

theorem trimmed_picture :
    (s.trimmed d).picture =
      ((s.connected d).picture.edges.keys.filter fun key =>
        !(distinctEdges d.edges).any fun e => e.key == key).foldl Chart.withoutEdge
          (s.connected d).picture :=
  foldl_removeEdge_picture _ _

theorem trimmed_sameSetup : Stage.SameSetup s (s.trimmed d) :=
  (s.connected_sameSetup d).trans (Stage.sameSetup_foldl removeEdge_sameSetup _ _)

theorem trimmed_bare? (id : String) :
    (s.trimmed d).picture.bare? id = (s.populated d).picture.bare? id := by
  rw [trimmed_picture, Chart.foldl_withoutEdge_bare?, connected_bare?]

/-- After the stale edges are removed, the edges that are left have keys of the
    flowchart. -/
theorem trimmed_getElem? (key : String) :
    (s.trimmed d).picture.edges[key]? =
      if key ∈ d.edges.map Edge.key then (s.connected d).picture.edges[key]? else none := by
  rw [trimmed_picture, Chart.foldl_withoutEdge_getElem?]
  have hany : ((distinctEdges d.edges).any fun e => e.key == key) = true ↔
      key ∈ d.edges.map Edge.key := by
    rw [← mem_map_key_distinctEdges]
    simp
  by_cases hkey : key ∈ d.edges.map Edge.key
  · simp [hkey, hany.mpr hkey]
  · rw [if_neg hkey]
    split
    · rfl
    · rename_i hstale
      apply Std.ExtTreeMap.getElem?_eq_none
      intro hmem
      apply hstale
      rw [List.mem_filter]
      refine ⟨Std.ExtTreeMap.mem_keys.mpr hmem, ?_⟩
      rw [Bool.not_eq_true', Bool.eq_false_iff]
      exact fun h => hkey (hany.mp h)

/-- The last pass routes the edges that are left, and changes nothing else. -/
theorem render_picture :
    (s.render d).picture =
      (s.trimmed d).picture.edges.keys.foldl Chart.rerouted (s.trimmed d).picture := by
  rw [render_eq, updateEdges_picture]

theorem render_sameSetup : Stage.SameSetup s (s.render d) :=
  (s.trimmed_sameSetup d).trans (updateEdges_sameSetup _ _)

/-- The nodes of a rendered chart are those of the flowchart, as it states
    them. -/
theorem render_bare? (id : String) :
    (s.render d).picture.bare? id =
      (d.lastNode? id).map fun last => s.restated d (s.picture.bare? id) last := by
  rw [← populated_bare?, ← trimmed_bare?]
  unfold Chart.bare?
  rw [render_picture, Chart.foldl_rerouted_nodes]

/-- The ends of edges are where they are once the nodes are placed. -/
theorem render_ends? (e : Edge) :
    (s.render d).picture.ends? e = (s.populated d).picture.ends? e := by
  apply Chart.ends?_congr
  · rw [render_bare?, populated_bare?]
  · rw [render_bare?, populated_bare?]

/-- An edge of a rendered chart is one that was left in the end, routed anew. -/
theorem render_getElem? (key : String) :
    (s.render d).picture.edges[key]? =
      (s.trimmed d).picture.edges[key]?.map (s.render d).picture.reroute := by
  have hreroute : (s.render d).picture.reroute = (s.trimmed d).picture.reroute := by
    funext e
    apply Chart.reroute_congr
    rw [render_picture]
    simp [Chart.ends?, Chart.foldl_rerouted_nodes]
  rw [hreroute, render_picture, Chart.foldl_rerouted_getElem?]
  split
  · rfl
  · rename_i hnot
    rw [Std.ExtTreeMap.getElem?_eq_none (fun h => hnot (Std.ExtTreeMap.mem_keys.mpr h))]
    rfl

end Passes

end ChartStage

end LiveDiagram
