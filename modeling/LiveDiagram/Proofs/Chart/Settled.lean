import LiveDiagram.Proofs.Chart.Edits
import LiveDiagram.Proofs.Chart.Routes

namespace LiveDiagram

variable {α : Type}

/-- A node is given by its list of edges and the rest of it. -/
theorem NodeItem.eq_of_bare {n m : NodeItem α} (hbare : n.bare = m.bare)
    (hkeys : n.edgeKeys = m.edgeKeys) : n = m := by
  cases n
  cases m
  unfold bare at hbare
  simp_all

variable [Scalar α]

namespace ChartStage

section PlaceNodes

variable (s : ChartStage α) (specs : List (Node × Nat))

/-- The stage after some nodes were placed. -/
def withNodes : ChartStage α :=
  specs.foldl (fun s p => (s.placeNode p.1 p.2).state) s

theorem placeNodes_eq_withNodes (d : Flowchart) : s.placeNodes d = s.withNodes d.nodes.zipIdx :=
  rfl

/-- Placing a node that is there leaves the store alone, and every node its list
    of edges. -/
theorem placeNode_of_mem {s : ChartStage α} {spec : Node} (hmem : spec.id ∈ s.picture.nodes)
    (index : Nat) :
    (s.placeNode spec index).state.store = s.store ∧
      ∀ id : String, (s.placeNode spec index).state.picture.nodes[id]?.map NodeItem.edgeKeys =
        s.picture.nodes[id]?.map NodeItem.edgeKeys := by
  rw [placeNode_eq, if_pos hmem]
  refine ⟨rfl, fun id => ?_⟩
  rw [Stage.draw_picture, Chart.setNode_getElem?]
  split
  · rename_i heq
    obtain ⟨n, hn⟩ := Option.isSome_iff_exists.mp (Std.ExtTreeMap.mem_iff_isSome_getElem?.mp hmem)
    rw [← heq, hn]
    rfl
  · rfl

/-- Placing a node changes nothing of the chart but its nodes. -/
theorem placeNode_rest (spec : Node) (index : Nat) :
    (s.placeNode spec index).state.picture =
      { s.picture with nodes := (s.placeNode spec index).state.picture.nodes } := by
  rw [placeNode_eq]
  rfl

/-- Placing nodes changes nothing of the chart but its nodes. -/
theorem withNodes_rest :
    (s.withNodes specs).picture =
      { s.picture with nodes := (s.withNodes specs).picture.nodes } := by
  unfold withNodes
  induction specs generalizing s with
  | nil => rfl
  | cons p specs ih =>
    rw [List.foldl_cons, ih, placeNode_rest]

/-- Placing nodes that are there leaves the store alone, and every node its list
    of edges. -/
theorem withNodes_of_mem {s : ChartStage α} {specs : List (Node × Nat)}
    (hmem : ∀ p ∈ specs, p.1.id ∈ s.picture.nodes) :
    (s.withNodes specs).store = s.store ∧
      ∀ id : String, (s.withNodes specs).picture.nodes[id]?.map NodeItem.edgeKeys =
        s.picture.nodes[id]?.map NodeItem.edgeKeys := by
  unfold withNodes
  induction specs generalizing s with
  | nil => exact ⟨rfl, fun _ => rfl⟩
  | cons p specs ih =>
    obtain ⟨hstore, hkeys⟩ := placeNode_of_mem (hmem p List.mem_cons_self) p.2
    have hrest : ∀ q ∈ specs, q.1.id ∈ (s.placeNode p.1 p.2).state.picture.nodes := by
      intro q hq
      rw [Chart.mem_nodes_iff, placeNode_bare?]
      split
      · rfl
      · exact Chart.mem_nodes_iff.mp (hmem q (List.mem_cons_of_mem _ hq))
    obtain ⟨hstore', hkeys'⟩ := ih hrest
    exact ⟨hstore'.trans hstore, fun id => (hkeys' id).trans (hkeys id)⟩

end PlaceNodes

/-- A render of the flowchart finds nothing to change. -/
structure Settled (s : ChartStage α) (d : Flowchart) : Prop where
  classes : s.picture.classes = d.classes
  direction : s.picture.direction = d.direction
  mem_nodes : ∀ id, id ∈ s.picture.nodes ↔ id ∈ d.nodeIds
  stated : ∀ (id : String) (n : NodeItem α) (last : Node), s.picture.bare? id = some n →
    d.lastNode? id = some last →
    n.label = last.label ∧ n.className = last.className ∧ n.style = s.styleFor last.className
  /-- The edges that are missing lack a node. -/
  placed : ∀ e ∈ distinctEdges d.edges, e.key ∈ s.picture.edges ∨ s.picture.ends? e = none
  wanted : ∀ key ∈ s.picture.edges, key ∈ d.edges.map Edge.key
  routed : s.picture.Routed

theorem render_classes (s : ChartStage α) (d : Flowchart) :
    (s.render d).picture.classes = d.classes := by
  have hsteps := s.render_steps (P := fun _ => True) (d := d) fun _ _ => trivial
  exact hsteps.classes

theorem render_direction (s : ChartStage α) (d : Flowchart) :
    (s.render d).picture.direction = d.direction := by
  have hsteps := s.render_steps (P := fun _ => True) (d := d) fun _ _ => trivial
  exact hsteps.direction

/-- A render leaves the stage settled, whatever it was like before. An edge that
    is left under a key of the flowchart is the first one with that key, since
    no other one is placed. -/
theorem settled_render (s : ChartStage α) (d : Flowchart) : (s.render d).Settled d where
  classes := s.render_classes d
  direction := s.render_direction d
  mem_nodes id := by
    rw [Chart.mem_nodes_iff, render_bare?, Option.isSome_map, Flowchart.lastNode?_isSome]
  stated id n last hn hlast := by
    rw [render_bare?, hlast] at hn
    cases hn
    have hstyle : (s.pruned d).styleFor last.className = (s.render d).styleFor last.className := by
      rw [pruned_styleFor, styleFor, s.render_classes d, (s.render_sameSetup d).settings]
    exact ⟨rfl, rfl, hstyle⟩
  placed e he := by
    have hkey : e.key ∈ d.edges.map Edge.key :=
      mem_map_key_distinctEdges.mp (List.mem_map_of_mem he)
    rw [render_ends?, Std.ExtTreeMap.mem_iff_isSome_getElem?, render_getElem?, Option.isSome_map,
      trimmed_getElem?, if_pos hkey, connected_getElem?]
    cases (s.pruned d).picture.edges[e.key]? with
    | some old => exact .inl rfl
    | none =>
      have hfirst : (distinctEdges d.edges).find? (fun f => f.key == e.key) = some e :=
        find?_key_of_nodup (nodup_map_key_distinctEdges d.edges) he
      rw [hfirst]
      dsimp only [Option.bind_some]
      cases (s.populated d).picture.ends? e with
      | none => exact .inr rfl
      | some ends => exact .inl rfl
  wanted key hkey := by
    rw [Std.ExtTreeMap.mem_iff_isSome_getElem?, render_getElem?, Option.isSome_map,
      trimmed_getElem?] at hkey
    split at hkey
    · assumption
    · cases hkey
  routed := s.render_routed d

section Settled

variable {s : ChartStage α} {d : Flowchart}

/-- On a settled stage no node is stale. -/
theorem Settled.pruned_eq (hs : s.Settled d) : s.pruned d = s := by
  have hstart : s.set { s.picture with classes := d.classes, direction := d.direction } = s := by
    unfold ChartStage.set
    rw [← hs.classes, ← hs.direction]
  have hstale : s.staleNodes d = [] := by
    rw [List.eq_nil_iff_forall_not_mem]
    intro id hid
    obtain ⟨hmem, hnot⟩ := (mem_staleNodes s d).mp hid
    exact hnot ((hs.mem_nodes id).mp hmem)
  have hkeys : s.pruned d = (s.staleNodes d).foldl removeNode
      (s.set { s.picture with classes := d.classes, direction := d.direction }) := rfl
  rw [hkeys, hstale, hstart]
  rfl

/-- On a settled stage every node is already as its last declaration states
    it. -/
theorem Settled.populated_bare? (hs : s.Settled d) (id : String) :
    (s.populated d).picture.bare? id = s.picture.bare? id := by
  rw [ChartStage.populated_bare?]
  cases hn : s.picture.bare? id with
  | none =>
    have hnot : id ∉ d.nodeIds := by
      rw [← hs.mem_nodes, Chart.mem_nodes_iff, hn]
      exact Bool.false_ne_true
    rw [Flowchart.lastNode?_eq_none.mpr hnot]
    rfl
  | some n =>
    have hid : id ∈ d.nodeIds := by
      rw [← hs.mem_nodes, Chart.mem_nodes_iff, hn]
      rfl
    obtain ⟨last, hlast⟩ := Option.isSome_iff_exists.mp (Flowchart.lastNode?_isSome.mpr hid)
    obtain ⟨hlabel, hclass, hstyle⟩ := hs.stated id n last hn hlast
    obtain ⟨m, -, rfl⟩ := Chart.exists_of_bare? hn
    have hown : m.bare.style = s.styleFor m.bare.className :=
      hstyle.trans (congrArg s.styleFor hclass.symm)
    rw [hlast, Option.map_some]
    unfold restated placedAs
    rw [hs.pruned_eq, ← hlabel, ← hclass, ← hown]

/-- On a settled stage placing the nodes draws them and changes nothing on the
    chart. The list of edges of each node stays too, although a node is put
    anew. -/
theorem Settled.populated_picture (hs : s.Settled d) :
    (s.populated d).picture = s.picture ∧ (s.populated d).store = s.store := by
  have hmem : ∀ p ∈ d.nodes.zipIdx, p.1.id ∈ s.picture.nodes := by
    intro p hp
    rw [hs.mem_nodes]
    exact List.mem_map_of_mem (List.fst_mem_of_mem_zipIdx hp)
  obtain ⟨hstore, hkeys⟩ := withNodes_of_mem hmem
  have hpopulated : s.populated d = s.withNodes d.nodes.zipIdx := by
    unfold populated
    rw [hs.pruned_eq, placeNodes_eq_withNodes]
  have hnodes : (s.populated d).picture.nodes = s.picture.nodes := by
    apply Std.ExtTreeMap.ext_getElem?
    intro id
    have hbare := hs.populated_bare? id
    have hkey := hkeys id
    rw [← hpopulated] at hkey
    unfold Chart.bare? at hbare
    revert hbare hkey
    cases (s.populated d).picture.nodes[id]? <;> cases s.picture.nodes[id]? <;>
      simp only [Option.map_some, Option.map_none, reduceCtorEq, Option.some.injEq, false_implies,
        implies_true]
    exact NodeItem.eq_of_bare
  constructor
  · rw [hpopulated] at hnodes ⊢
    rw [withNodes_rest, hnodes]
  · rw [hpopulated, hstore]

/-- On a settled stage no edge is missing that has both of its nodes. -/
theorem Settled.connected_eq (hs : s.Settled d) : s.connected d = s.populated d := by
  have hplaced : ∀ (specs : List Edge), (∀ e ∈ specs, e ∈ distinctEdges d.edges) →
      (s.populated d).placeEdges specs = s.populated d := by
    intro specs
    induction specs with
    | nil => exact fun _ => rfl
    | cons e specs ih =>
      intro hspecs
      have hkept : (s.populated d).placeEdge e = s.populated d := by
        rcases placeEdge_cases (s.populated d) e with ⟨heq, -⟩ | ⟨ends, hnot, hends, -⟩
        · exact heq
        · rw [hs.populated_picture.1] at hnot hends
          rcases hs.placed e (hspecs e List.mem_cons_self) with hmem | hnone
          · exact absurd hmem hnot
          · rw [hnone] at hends
            cases hends
      unfold placeEdges
      rw [List.foldl_cons, hkept]
      exact ih fun f hf => hspecs f (List.mem_cons_of_mem _ hf)
  exact hplaced _ fun _ he => he

/-- On a settled stage no edge is stale. -/
theorem Settled.trimmed_eq (hs : s.Settled d) : s.trimmed d = s.populated d := by
  have hkeys : ((s.connected d).picture.edges.keys.filter fun key =>
      !(distinctEdges d.edges).any fun e => e.key == key) = [] := by
    rw [List.filter_eq_nil_iff]
    intro key hkey
    rw [hs.connected_eq, hs.populated_picture.1] at hkey
    have hwanted := hs.wanted key (Std.ExtTreeMap.mem_keys.mp hkey)
    rw [← mem_map_key_distinctEdges] at hwanted
    simpa using hwanted
  unfold trimmed removeStaleEdges
  rw [hkeys, List.foldl_nil, hs.connected_eq]

/-- Routing routed edges once more changes neither the chart nor the store. -/
theorem updateEdges_of_routed (hs : s.picture.Routed) (keys : List String) :
    (s.updateEdges keys).picture = s.picture ∧ (s.updateEdges keys).store = s.store := by
  unfold updateEdges
  induction keys generalizing s with
  | nil => exact ⟨rfl, rfl⟩
  | cons key keys ih =>
    have hpicture : (s.updateEdge key).state.picture = s.picture := by
      rw [updateEdge_picture]
      unfold Chart.rerouted
      split
      · rename_i e he
        rw [hs key e he]
        exact Chart.setEdge_self he
      · rfl
    have hstore := updateEdge_store_of_reroute fun e he => hs key e he
    obtain ⟨hpicture', hstore'⟩ := ih (s := (s.updateEdge key).state) (hpicture ▸ hs)
    exact ⟨hpicture'.trans hpicture, hstore'.trans hstore⟩

/-- Rendering the flowchart once more changes neither the chart nor the store.
    Primitives are drawn again, but the chart says nothing of them. -/
theorem Settled.render_eq (hs : s.Settled d) :
    (s.render d).picture = s.picture ∧ (s.render d).store = s.store := by
  obtain ⟨hpicture, hstore⟩ := hs.populated_picture
  obtain ⟨hpicture', hstore'⟩ := updateEdges_of_routed (s := s.populated d) (hpicture ▸ hs.routed)
    (s.populated d).picture.edges.keys
  rw [ChartStage.render_eq, hs.trimmed_eq]
  exact ⟨hpicture'.trans hpicture, hstore'.trans hstore⟩

end Settled

end ChartStage

end LiveDiagram
