import LiveDiagram.Proofs.Chart.Edits

namespace LiveDiagram

variable {α : Type}

namespace Chart

section SetNode

variable {c : Chart α} {id : String} {n n' : NodeItem α}

/-- A node that stays where it is leaves the ends of all edges where they
    are. -/
theorem setNode_ends?_of_rect (hn : c.nodes[id]? = some n) (hrect : n'.rect = n.rect) (e : Edge) :
    (c.setNode id n').ends? e = c.ends? e := by
  have hsame : ∀ other : String, (c.setNode id n').nodes[other]?.map NodeItem.rect =
      c.nodes[other]?.map NodeItem.rect := by
    intro other
    rw [setNode_getElem?]
    split
    · rename_i heq
      rw [← heq, hn, Option.map_some, Option.map_some, hrect]
    · rfl
  have hsource := hsame e.source
  have htarget := hsame e.target
  unfold ends?
  revert hsource htarget
  cases (c.setNode id n').nodes[e.source]? <;> cases c.nodes[e.source]? <;>
    cases (c.setNode id n').nodes[e.target]? <;> cases c.nodes[e.target]? <;> simp_all

/-- A node at which an edge does not end has no part in where its ends are. -/
theorem setNode_ends?_of_not_endsAt {e : Edge} (hnot : ¬ e.EndsAt id) :
    (c.setNode id n).ends? e = c.ends? e := by
  have hsource : id ≠ e.source := fun h => hnot (.inl h.symm)
  have htarget : id ≠ e.target := fun h => hnot (.inr h.symm)
  unfold ends?
  rw [setNode_getElem?, setNode_getElem?, if_neg hsource, if_neg htarget]

end SetNode

end Chart

variable [Scalar α]

namespace Chart

/-- Whether an edge is selected does not change its route. -/
theorem reroute_select (c : Chart α) (e : EdgeItem α) (selected : Bool) :
    c.reroute { e with selected } = { c.reroute e with selected } := by
  unfold reroute
  dsimp only
  cases c.ends? e.edge <;> rfl

/-- A chart stays routed when no node moves and edges change in nothing but
    their selection. -/
theorem Routed.congr {c c' : Chart α} (hc : c.Routed) (hends : ∀ e, c'.ends? e = c.ends? e)
    (hedges : ∀ (key : String) (e' : EdgeItem α), c'.edges[key]? = some e' →
      ∃ e selected, c.edges[key]? = some e ∧ e' = { e with selected }) : c'.Routed := by
  intro key e' he'
  obtain ⟨e, selected, he, rfl⟩ := hedges key e' he'
  rw [reroute_congr (hends _), reroute_select, hc key e he]

/-- On a routed chart every route runs between the current rectangles of its two
    nodes. On a chart that is not linked an edge may lack a node, and then it
    keeps whatever route it has. -/
theorem Routed.route_eq {c : Chart α} (hc : c.Routed) (hlinked : c.Linked) {key : String} {e : EdgeItem α}
    (he : c.edges[key]? = some e) :
    ∃ source target, c.ends? e.edge = some (source, target) ∧ e.route = e.shape.route source target := by
  obtain ⟨ends, hends⟩ := Option.isSome_iff_exists.mp (hlinked.ends?_isSome he)
  have hrouted := hc key e he
  rw [reroute_of_ends? hends] at hrouted
  refine ⟨ends.1, ends.2, hends, ?_⟩
  have hshape : e.shape.completed ends.1 ends.2 = e.shape := congrArg EdgeItem.shape hrouted
  have hroute : (e.shape.completed ends.1 ends.2).route ends.1 ends.2 = e.route :=
    congrArg EdgeItem.route hrouted
  rw [← hroute, hshape]

/-- A chart stays routed when an edge is put as routing leaves it. -/
theorem Routed.setEdge {c : Chart α} (hc : c.Routed) (key : String) {e : EdgeItem α}
    {ends : Rect α × Rect α} (hends : c.ends? e.edge = some ends) :
    (c.setEdge key (e.routed ends)).Routed := by
  intro other f hf
  have hsame : (c.setEdge key (e.routed ends)).reroute f = c.reroute f := reroute_congr rfl
  rw [hsame]
  rw [setEdge_getElem?] at hf
  split at hf
  · cases hf
    have hrouted : c.ends? (e.routed ends).edge = some ends := hends
    rw [reroute_of_ends? hrouted, EdgeItem.routed_routed]
  · exact hc other f hf

end Chart

namespace ChartStage

variable {s : ChartStage α}

/-- A change to a node that stays where it is affects no route. -/
theorem modifyNode_routed (hs : s.picture.Routed) (id : String) {f : NodeItem α → NodeItem α}
    (hrect : ∀ n, (f n).rect = n.rect) : (s.modifyNode id f).state.picture.Routed := by
  unfold modifyNode
  cases hn : s.picture.nodes[id]? with
  | none => exact hs
  | some n =>
    dsimp only
    rw [set_drawNode, Stage.draw_picture]
    exact hs.congr (Chart.setNode_ends?_of_rect hn (hrect n)) fun key e he => ⟨e, e.selected, he, rfl⟩

/-- A node that changes and has the edges that it lists routed anew leaves the
    chart routed. The edges that the node does not list end elsewhere, so their
    ends have not moved. A refusal of the node would stop the change before its
    edges are routed. -/
theorem modifyNode_notifyDependents_routed (haccepts : s.surface.Accepts)
    (hlinked : s.picture.Linked) (hs : s.picture.Routed) (id : String)
    {f : NodeItem α → NodeItem α} (hkeys : ∀ n, (f n).edgeKeys = n.edgeKeys) :
    (s.modifyNode id f).refusal = none ∧
      ((s.modifyNode id f).state.notifyDependents id).picture.Routed := by
  unfold modifyNode
  cases hn : s.picture.nodes[id]? with
  | none =>
    refine ⟨rfl, ?_⟩
    unfold notifyDependents
    rw [Outcome.done_state, hn]
    exact hs
  | some n =>
    dsimp only
    rw [set_drawNode]
    refine ⟨haccepts.draw_refusal ((f n).marks id), ?_⟩
    have hmoved : (s.picture.setNode id (f n)).nodes[id]? = some (f n) := by simp
    unfold notifyDependents
    rw [Stage.draw_picture, hmoved]
    dsimp only
    rw [updateEdges_picture, Stage.draw_picture]
    apply Chart.routed_foldl_rerouted
    intro key e hkey he
    have hnot : ¬ e.edge.EndsAt id := by
      intro hat
      apply hkey
      rw [hkeys]
      exact (hlinked.mem_edgeKeys hn key).mpr ⟨e, he, hat⟩
    rw [Chart.reroute_congr (Chart.setNode_ends?_of_not_endsAt hnot)]
    exact hs key e he

theorem set_selectedEdge_routed (hs : s.picture.Routed) (key : Option String) :
    ({ s.picture with selectedEdge := key } : Chart α).Routed :=
  hs.congr (fun _ => rfl) fun _ e he => ⟨e, e.selected, he, rfl⟩

@[simp] theorem commitNode_picture (s : ChartStage α) (id : String) :
    (s.commitNode id).picture = s.picture := by
  unfold commitNode
  split <;> rfl

/-- Moving a node leaves the chart routed: it affects exactly the edges that the
    node lists. -/
theorem moveNode_routed (haccepts : s.surface.Accepts) (hlinked : s.picture.Linked)
    (hs : s.picture.Routed) (id : String) (corner : Point α) :
    (s.moveNode id corner).state.picture.Routed := by
  obtain ⟨hrefusal, hrouted⟩ := modifyNode_notifyDependents_routed haccepts hlinked hs id
    (f := fun n => { n with rect := { n.rect with x := corner.x, y := corner.y } }) fun _ => rfl
  unfold moveNode
  rw [Outcome.andThen_of_refusal_eq_none hrefusal]
  exact hrouted

theorem resizeNode_routed (haccepts : s.surface.Accepts) (hlinked : s.picture.Linked)
    (hs : s.picture.Routed) (id : String) (h : Handle) (step : Point α) :
    (s.resizeNode id h step).state.picture.Routed := by
  obtain ⟨hrefusal, hrouted⟩ := modifyNode_notifyDependents_routed haccepts hlinked hs id
    (f := fun n => { n with rect := n.rect.resize h step Layout.minNodeSize }) fun _ => rfl
  unfold resizeNode
  rw [Outcome.andThen_of_refusal_eq_none hrefusal, Outcome.done_state, commitNode_picture]
  exact hrouted

/-- Selecting a node leaves the chart routed, since the node stays where it
    is. -/
theorem setSelected_routed (hs : s.picture.Routed) (id : String) (selected : Bool) :
    (s.setSelected id selected).state.picture.Routed := by
  unfold setSelected
  split
  · split
    · exact hs
    · exact modifyNode_routed hs id fun _ => rfl
  · exact hs

theorem clearSelection_routed (hs : s.picture.Routed) :
    s.clearSelection.state.picture.Routed :=
  Outcome.forEach_state (P := fun t : ChartStage α => t.picture.Routed)
    (fun id _ _ ht => setSelected_routed ht id false) hs

/-- Marking an edge as selected leaves its route and all others. -/
theorem markEdge_routed (hs : s.picture.Routed) (key : String) (selected : Bool) :
    (s.markEdge key selected).state.picture.Routed := by
  unfold markEdge
  cases he : s.picture.edges[key]? with
  | none => exact hs
  | some e =>
    dsimp only
    rw [set_drawEdge, Stage.draw_picture]
    refine hs.congr (fun _ => rfl) fun other f hf => ?_
    rw [Chart.setEdge_getElem?] at hf
    split at hf
    · rename_i heq
      cases hf
      exact ⟨e, selected, heq ▸ he, rfl⟩
    · exact ⟨f, f.selected, hf, rfl⟩

theorem deselectEdge_routed (hs : s.picture.Routed) : s.deselectEdge.state.picture.Routed := by
  unfold deselectEdge
  split
  · exact hs
  · exact Outcome.andThen_state (P := fun t : ChartStage α => t.picture.Routed)
      (markEdge_routed hs _ false) fun t ht => set_selectedEdge_routed ht none

theorem selectEdge_routed (hs : s.picture.Routed) (key : String) :
    (s.selectEdge key).state.picture.Routed := by
  unfold selectEdge
  split
  · exact hs
  · refine Outcome.andThen_state (P := fun t : ChartStage α => t.picture.Routed)
      (deselectEdge_routed hs) fun t ht => ?_
    split
    · refine markEdge_routed ?_ key true
      exact set_selectedEdge_routed ht (some key)
    · exact ht

theorem toggleEdge_routed (hs : s.picture.Routed) (key : String) :
    (s.toggleEdge key).state.picture.Routed := by
  unfold toggleEdge
  split
  · exact deselectEdge_routed hs
  · exact selectEdge_routed hs key

/-- Reshaping an edge routes it anew and no other one. -/
theorem reshapeEdge_routed (hs : s.picture.Routed) (key : String)
    (f : EdgeShape α → Rect α → Rect α → EdgeShape α) :
    (s.reshapeEdge key f).state.picture.Routed := by
  unfold reshapeEdge
  cases he : s.picture.edges[key]? with
  | none => exact hs
  | some e =>
    dsimp only
    cases hends : s.picture.ends? e.edge with
    | none => exact hs
    | some ends =>
      dsimp only
      rw [reshaped_eq hends, Stage.draw_picture]
      exact hs.setEdge key hends

theorem setAnchor_routed (hs : s.picture.Routed) (key : String) (which : EdgeEnd) (p : Point α) :
    (s.setAnchor key which p).state.picture.Routed := by
  unfold setAnchor
  exact reshapeEdge_routed hs key _

theorem setControl_routed (hs : s.picture.Routed) (key : String) (index : Int) (p : Point α) :
    (s.setControl key index p).state.picture.Routed := by
  unfold setControl
  exact reshapeEdge_routed hs key _

/-- An edge that becomes a curve, or straight again, is routed anew. Its shape
    is completed before, and completing a complete shape again changes
    nothing. -/
theorem toggleCurve_routed (hs : s.picture.Routed) (key : String) :
    (s.toggleCurve key).state.picture.Routed := by
  unfold toggleCurve
  cases he : s.picture.edges[key]? with
  | none => exact hs
  | some e =>
    dsimp only
    cases hends : s.picture.ends? e.edge with
    | none => exact hs
    | some ends =>
      dsimp only
      have hpicture : (s.completeShape e.edge { e.shape with curved := !e.shape.curved } ends.1
          ends.2).1.picture = s.picture := by
        unfold completeShape
        split <;> rfl
      rw [← hpicture] at hs hends
      rw [reshaped_eq hends, Stage.draw_picture]
      exact hs.setEdge key hends

/-- Routing edges leaves routed edges routed, and all others of the list too. -/
theorem updateEdges_routed (hs : s.picture.Routed) (keys : List String) :
    (s.updateEdges keys).picture.Routed := by
  rw [updateEdges_picture]
  exact Chart.routed_foldl_rerouted fun key e _ he => hs key e he

/-- Routing the edges at a node leaves the chart routed. -/
theorem notifyDependents_routed (hs : s.picture.Routed) (id : String) :
    (s.notifyDependents id).picture.Routed := by
  unfold notifyDependents
  split
  · exact updateEdges_routed hs _
  · exact hs

/-- Routing all edges leaves all edges routed, whatever they were like. -/
theorem updateEdges_keys_routed (s : ChartStage α) :
    (s.updateEdges s.picture.edges.keys).picture.Routed := by
  rw [updateEdges_picture]
  apply Chart.routed_foldl_rerouted
  intro key e hkey he
  exact absurd (Std.ExtTreeMap.mem_keys.mpr (Std.ExtTreeMap.mem_iff_isSome_getElem?.mpr
    (by rw [he]; rfl))) hkey

theorem restyle_routed (hs : s.picture.Routed) : s.restyle.picture.Routed := by
  unfold restyle
  induction s.picture.nodes.keys generalizing s with
  | nil => exact hs
  | cons id ids ih => exact ih (modifyNode_routed hs id fun _ => rfl)

/-- Every edit of a routed chart leaves it routed, as an edit routes every edge
    that it affects. -/
theorem edit_routed (haccepts : s.surface.Accepts) (hlinked : s.picture.Linked)
    (hs : s.picture.Routed) (e : ChartEdit α) : (s.edit e).state.picture.Routed := by
  cases e with
  | moveNode id corner => exact moveNode_routed haccepts hlinked hs id corner
  | resizeNode id h step => exact resizeNode_routed haccepts hlinked hs id h step
  | commitNode id =>
    have hsame := s.commitNode_picture id
    exact hsame ▸ hs
  | setSelected id selected => exact setSelected_routed hs id selected
  | clearSelection => exact clearSelection_routed hs
  | selectEdge key => exact selectEdge_routed hs key
  | deselectEdge => exact deselectEdge_routed hs
  | toggleEdge key => exact toggleEdge_routed hs key
  | setAnchor key which p => exact setAnchor_routed hs key which p
  | setControl key index p => exact setControl_routed hs key index p
  | toggleCurve key => exact toggleCurve_routed hs key
  | notifyDependents id => exact notifyDependents_routed hs id
  | normalizeLayout => exact updateEdges_keys_routed _

/-- A render leaves the chart routed, as it routes all edges in the end. -/
theorem render_routed (s : ChartStage α) (d : Flowchart) : (s.render d).picture.Routed :=
  updateEdges_keys_routed _

end ChartStage

end LiveDiagram
