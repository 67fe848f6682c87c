import LiveDiagram.Proofs.Chart.Scene
import LiveDiagram.Proofs.Chart.Settled

namespace LiveDiagram

/-- Maps with the same keys list them in the same order, whatever they hold
    under them. -/
theorem keys_eq_of_mem_iff {β γ : Type} {t : Std.ExtTreeMap String β} {u : Std.ExtTreeMap String γ}
    (h : ∀ key, key ∈ t ↔ key ∈ u) : t.keys = u.keys := by
  have hperm : t.keys.Perm u.keys := by
    rw [List.perm_ext_iff_of_nodup Std.ExtTreeMap.nodup_keys Std.ExtTreeMap.nodup_keys]
    intro key
    rw [Std.ExtTreeMap.mem_keys, Std.ExtTreeMap.mem_keys, h]
  refine hperm.eq_of_pairwise ?_ Std.ExtTreeMap.ordered_keys Std.ExtTreeMap.ordered_keys
  intro a b _ _ hab hba
  rw [Std.OrientedCmp.gt_of_lt hab] at hba
  cases hba

variable {α : Type} [Scalar α]

namespace ChartStage

section NodeMarks

/-- The marks that placing nodes makes, when it leaves this stage: each node is
    drawn as its own declaration states it, on the place that it has in the end.
    A node that is declared twice is drawn twice. -/
def nodeMarks (t : ChartStage α) (specs : List Node) : List (Mark α) :=
  specs.flatMap fun spec =>
    match t.picture.bare? spec.id with
    | some n =>
      ({ n with
          label := spec.label
          className := spec.className
          style := t.styleFor spec.className } : NodeItem α).marks spec.id
    | none => []

/-- These marks depend on the places of the nodes and the styles of the
    classes. -/
theorem nodeMarks_congr {t u : ChartStage α} (hbare : ∀ id, u.picture.bare? id = t.picture.bare? id)
    (hstyle : u.styleFor = t.styleFor) (specs : List Node) : u.nodeMarks specs = t.nodeMarks specs := by
  unfold nodeMarks
  rw [hstyle]
  congr 1
  funext spec
  rw [hbare]

theorem withNodes_styleFor (s : ChartStage α) (specs : List (Node × Nat)) :
    (s.withNodes specs).styleFor = s.styleFor := by
  unfold withNodes
  induction specs generalizing s with
  | nil => rfl
  | cons p specs ih => rw [List.foldl_cons, ih, placeNode_styleFor]

/-- The first node to be placed under an id already stands where it stands in
    the end. Placing it again changes its label and its class, and keeps its
    rectangle. -/
theorem placedAs_marks (s : ChartStage α) (p : Node × Nat) (specs : List (Node × Nat)) :
    (s.placedAs s.picture.nodes[p.1.id]? p.2 p.1).marks p.1.id =
      (s.withNodes (p :: specs)).nodeMarks [p.1] := by
  have hbare := s.foldl_placeNode_bare? (p :: specs) p.1.id
  have hfirst : (p :: specs).find? (fun q => q.1.id == p.1.id) = some p := by simp
  have hsome : ((p :: specs).reverse.find? fun q => q.1.id == p.1.id).isSome := by
    rw [List.find?_isSome]
    exact ⟨p, List.mem_reverse.mpr List.mem_cons_self, beq_self_eq_true _⟩
  obtain ⟨last, hlast⟩ := Option.isSome_iff_exists.mp hsome
  have hid : last.1.id = p.1.id := by simpa using List.find?_some hlast
  rw [hfirst, hlast] at hbare
  unfold nodeMarks
  rw [List.flatMap_singleton, withNodes_styleFor]
  unfold withNodes
  rw [hbare]
  unfold placedAs Chart.bare?
  cases s.picture.nodes[p.1.id]? with
  | some n => rfl
  | none =>
    dsimp only [Option.map_none]
    rw [hid]

/-- What placing nodes leaves on a surface that refuses nothing: the last mark
    under each id, or what was there. Ids may be anything here, and two nodes
    may have a part in common. -/
theorem withNodes_primitives (specs : List (Node × Nat)) (s : ChartStage α)
    (haccepts : s.surface.Accepts) (name : String) :
    (s.withNodes specs).surface.primitives[name]? =
      Mark.effect ((s.withNodes specs).nodeMarks (specs.map Prod.fst)) name
        s.surface.primitives[name]? := by
  induction specs generalizing s with
  | nil => rfl
  | cons p specs ih =>
    have hcons : (s.withNodes (p :: specs)) = (s.placeNode p.1 p.2).state.withNodes specs := rfl
    have hmarks := s.placedAs_marks p specs
    have hsplit : (s.withNodes (p :: specs)).nodeMarks (p.1 :: specs.map Prod.fst) =
        (s.withNodes (p :: specs)).nodeMarks [p.1] ++
          (s.withNodes (p :: specs)).nodeMarks (specs.map Prod.fst) := by
      simp [nodeMarks]
    have hdrawn : (s.placeNode p.1 p.2).state.surface.primitives[name]? =
        Mark.effect ((s.withNodes (p :: specs)).nodeMarks [p.1]) name s.surface.primitives[name]? := by
      rw [placeNode_eq, Stage.draw_surface, ← hmarks]
      exact haccepts.draw_getElem? _ name
    rw [List.map_cons, hsplit, Mark.effect_append, ← hdrawn, hcons]
    exact ih _ ((placeNode_sameSetup s p.1 p.2).accepts haccepts)

end NodeMarks

section EdgeMarks

/-- The marks that routing edges makes, when it leaves this chart. An edge that
    lacks a node is not drawn. -/
def edgeMarks (measure : Measure α) (c : Chart α) (keys : List String) : List (Mark α) :=
  keys.flatMap fun key =>
    match c.edges[key]? with
    | some e => if (c.ends? e.edge).isSome then e.marks measure key else []
    | none => []

/-- The first edge to be routed is drawn with the route that it has in the end.
    If it occurs again among the others, its shape is complete by then, and its
    nodes are where they were. -/
theorem updateEdge_marks (s : ChartStage α) (key : String) (keys : List String) :
    (s.updateEdge key).state.surface =
      (s.surface.draw
        (edgeMarks s.measure (s.updateEdges (key :: keys)).picture [key])).1 := by
  have hfound : (s.updateEdges (key :: keys)).picture.edges[key]? =
      s.picture.edges[key]?.map s.picture.reroute := by
    rw [updateEdges_picture, Chart.foldl_rerouted_getElem?, if_pos List.mem_cons_self]
  have hends : ∀ e, (s.updateEdges (key :: keys)).picture.ends? e = s.picture.ends? e := by
    intro e
    rw [updateEdges_picture]
    unfold Chart.ends?
    rw [Chart.foldl_rerouted_nodes]
  unfold edgeMarks
  rw [List.flatMap_singleton, hfound]
  cases he : s.picture.edges[key]? with
  | none =>
    rw [updateEdge_of_ends? (by simp [he])]
    rfl
  | some e =>
    rw [Option.map_some]
    dsimp only
    rw [hends, Chart.reroute_edge]
    cases hsome : s.picture.ends? e.edge with
    | none =>
      have hnone : ∀ f, s.picture.edges[key]? = some f → s.picture.ends? f.edge = none := by
        intro f hf
        rw [he] at hf
        cases hf
        exact hsome
      rw [updateEdge_of_ends? hnone]
      rfl
    | some ends =>
      rw [updateEdge_eq he hsome, Chart.reroute_of_ends? hsome]
      rfl

/-- What routing edges leaves on a surface that refuses nothing: the last mark
    under each id, or what was there. The induction is on the edges that are
    still to be routed. -/
theorem updateEdges_primitives (keys : List String) (s : ChartStage α)
    (haccepts : s.surface.Accepts) (name : String) :
    (s.updateEdges keys).surface.primitives[name]? =
      Mark.effect (edgeMarks s.measure (s.updateEdges keys).picture keys) name
        s.surface.primitives[name]? := by
  induction keys generalizing s with
  | nil => rfl
  | cons key keys ih =>
    have hcons : s.updateEdges (key :: keys) = (s.updateEdge key).state.updateEdges keys := rfl
    have hsplit : edgeMarks s.measure (s.updateEdges (key :: keys)).picture (key :: keys) =
        edgeMarks s.measure (s.updateEdges (key :: keys)).picture [key] ++
          edgeMarks s.measure (s.updateEdges (key :: keys)).picture keys := by
      simp [edgeMarks]
    have hsetup := updateEdge_sameSetup s key
    rw [hsplit, Mark.effect_append, ← haccepts.draw_getElem?, ← updateEdge_marks, hcons,
      ← hsetup.measure]
    exact ih _ (hsetup.accepts haccepts)

end EdgeMarks

section Frame

variable {name : String}

/-- Placing edges leaves alone what is no part of an edge. The parts of edges
    may be left in any state, since all edges are routed again at the end of a
    render. -/
theorem placeEdges_primitives (hname : ∀ key, name ∉ EdgeItem.partIds key) (specs : List Edge)
    (s : ChartStage α) (haccepts : s.surface.Accepts) :
    (s.placeEdges specs).surface.primitives[name]? = s.surface.primitives[name]? := by
  unfold placeEdges
  induction specs generalizing s with
  | nil => rfl
  | cons spec specs ih =>
    rw [List.foldl_cons, ih _ ((placeEdge_sameSetup s spec).accepts haccepts)]
    rcases placeEdge_cases s spec with ⟨heq, -⟩ | ⟨ends, -, -, heq⟩
    · rw [heq]
    · rw [heq, Stage.draw_surface]
      have hmarks : name ∉ Mark.ids (EdgeItem.marks s.measure spec.key (s.newEdge spec ends)) :=
        EdgeItem.ids_marks s.measure spec.key (s.newEdge spec ends) ▸ hname spec.key
      exact (haccepts.draw_getElem? _ name).trans (Mark.effect_of_not_mem hmarks _)

omit [Scalar α] in
/-- Removing edges leaves alone what is no part of an edge. -/
theorem foldl_removeEdge_primitives (hname : ∀ key, name ∉ EdgeItem.partIds key) (keys : List String)
    (s : ChartStage α) :
    (keys.foldl removeEdge s).surface.primitives[name]? = s.surface.primitives[name]? := by
  induction keys generalizing s with
  | nil => rfl
  | cons key keys ih =>
    rw [List.foldl_cons, ih]
    cases he : s.picture.edges[key]? with
    | none => rw [removeEdge_of_getElem?_eq_none he]
    | some e =>
      rw [removeEdge_of_getElem? he]
      exact (Surface.foldl_erase_getElem? _ _ name).trans (if_neg (hname key))

end Frame

section Twice

variable (s : ChartStage α) (d : Flowchart)

/-- Classes and settings are those of the rendered chart as soon as the nodes
    are placed. -/
theorem populated_styleFor : (s.populated d).styleFor = (s.render d).styleFor := by
  funext className
  have hplaced : (s.populated d).styleFor = (s.pruned d).styleFor :=
    withNodes_styleFor (s.pruned d) d.nodes.zipIdx
  rw [hplaced, pruned_styleFor, styleFor, s.render_classes d, (s.render_sameSetup d).settings]

/-- What the nodes of a render are drawn with: the marks of the nodes as the
    rendered chart has them. -/
theorem populated_primitives (haccepts : s.surface.Accepts) (name : String) :
    (s.populated d).surface.primitives[name]? =
      Mark.effect ((s.render d).nodeMarks d.nodes) name (s.pruned d).surface.primitives[name]? := by
  have hdrawn := withNodes_primitives d.nodes.zipIdx (s.pruned d)
    ((s.pruned_sameSetup d).accepts haccepts) name
  rw [List.zipIdx_map_fst] at hdrawn
  have hmarks : (s.populated d).nodeMarks d.nodes = (s.render d).nodeMarks d.nodes :=
    nodeMarks_congr (fun id => by rw [render_bare?, populated_bare?]) (s.populated_styleFor d) d.nodes
  rw [← hmarks]
  exact hdrawn

/-- The edges that are routed last are those of the rendered chart. -/
theorem keys_trimmed : (s.trimmed d).picture.edges.keys = (s.render d).picture.edges.keys := by
  apply keys_eq_of_mem_iff
  intro key
  rw [Std.ExtTreeMap.mem_iff_isSome_getElem?, Std.ExtTreeMap.mem_iff_isSome_getElem?, render_getElem?,
    Option.isSome_map]

/-- What the edges of a render are drawn with: the marks of the edges as the
    rendered chart has them, on what the steps before have left. -/
theorem render_primitives (haccepts : s.surface.Accepts) (name : String) :
    (s.render d).surface.primitives[name]? =
      Mark.effect (edgeMarks s.measure (s.render d).picture (s.render d).picture.edges.keys) name
        (s.trimmed d).surface.primitives[name]? := by
  have hsetup := s.trimmed_sameSetup d
  rw [← keys_trimmed, ← hsetup.measure]
  exact updateEdges_primitives _ (s.trimmed d) (hsetup.accepts haccepts) name

/-- Rendering a flowchart twice leaves the same chart, store and primitives as
    rendering it once. Both renders draw the nodes with the same marks and the
    edges with the same marks, and in between the parts of nodes are left alone.
    Ids may be anything: when parts of nodes share an id, the last one drawn
    counts each time. -/
theorem render_render (haccepts : s.surface.Accepts) :
    (ChartStage.render (s.render d) d).picture = (s.render d).picture ∧
      (ChartStage.render (s.render d) d).store = (s.render d).store ∧
      (ChartStage.render (s.render d) d).surface.primitives = (s.render d).surface.primitives := by
  have hsettled := s.settled_render d
  obtain ⟨hpicture, hstore⟩ := hsettled.render_eq
  refine ⟨hpicture, hstore, ?_⟩
  have hsetup := s.render_sameSetup d
  have hagain := hsetup.accepts haccepts
  have hstyle : (ChartStage.render (s.render d) d).styleFor = (s.render d).styleFor := by
    rw [← populated_styleFor, ← withNodes_styleFor (s.render d) d.nodes.zipIdx]
    unfold populated
    rw [hsettled.pruned_eq, placeNodes_eq_withNodes]
  apply Std.ExtTreeMap.ext_getElem?
  intro name
  rw [render_primitives _ d hagain, hpicture, hsetup.measure, hsettled.trimmed_eq,
    populated_primitives _ d hagain, hsettled.pruned_eq,
    nodeMarks_congr (fun id => by rw [hpicture]) hstyle d.nodes]
  by_cases hedge : name ∈ Mark.ids
      (edgeMarks s.measure (s.render d).picture (s.render d).picture.edges.keys)
  · rw [Mark.effect_of_mem hedge _ (s.trimmed d).surface.primitives[name]?,
      ← s.render_primitives d haccepts]
  · rw [Mark.effect_of_not_mem hedge, s.render_primitives d haccepts, Mark.effect_of_not_mem hedge]
    by_cases hnode : name ∈ Mark.ids ((s.render d).nodeMarks d.nodes)
    · -- a part of a node is no part of an edge, so it is still as the first render placed it
      have hname : ∀ key, name ∉ EdgeItem.partIds key := by
        intro key hkey
        obtain ⟨m, hm, rfl⟩ := List.mem_map.mp hnode
        obtain ⟨spec, -, hspec⟩ := List.mem_flatMap.mp hm
        split at hspec
        · have hpart := Mark.mem_ids hspec
          rw [NodeItem.ids_marks] at hpart
          exact EdgeItem.not_mem_partIds_node hkey hpart
        · cases hspec
      have htrimmed : (s.trimmed d).surface.primitives[name]? =
          (s.populated d).surface.primitives[name]? := by
        have hpopulated := (s.populated_sameSetup d).accepts haccepts
        exact (foldl_removeEdge_primitives hname _ (s.connected d)).trans
          (placeEdges_primitives hname _ (s.populated d) hpopulated)
      rw [htrimmed, s.populated_primitives d haccepts, Mark.effect_effect]
    · rw [Mark.effect_of_not_mem hnode]

end Twice

end ChartStage

end LiveDiagram
