import LiveDiagram.Proofs.Chart.Routes

namespace LiveDiagram

variable {α : Type}

namespace Chart

/-- Whether the edge with that key is marked as selected, if it is there. -/
def marked? (c : Chart α) (key : String) : Option Bool :=
  c.edges[key]?.map EdgeItem.selected

/-- The marked edges are the selected one, if an edge is selected, and otherwise
    none. This holds as long as nothing is refused: what selects an edge changes
    both, what removes an edge drops both, and everything else leaves both
    alone. -/
def Coherent (c : Chart α) : Prop :=
  ∀ key, c.marked? key = some true ↔ c.selectedEdge = some key

variable {c c' : Chart α}

theorem marked?_of_getElem? {key : String} {e : EdgeItem α} (he : c.edges[key]? = some e) :
    c.marked? key = some e.selected := by
  rw [marked?, he]
  rfl

/-- On an empty chart no edge is selected and none is marked. -/
theorem coherent_empty : (empty : Chart α).Coherent := by
  intro key
  simp [empty, marked?]

/-- Whether a chart is coherent is seen at its marks and the selected edge. -/
theorem Coherent.congr (hc : c.Coherent) (hselected : c'.selectedEdge = c.selectedEdge)
    (hmarked : ∀ key, c'.marked? key = c.marked? key) : c'.Coherent := by
  intro key
  rw [hselected, hmarked]
  exact hc key

theorem setEdge_marked? (c : Chart α) (key other : String) (e : EdgeItem α) :
    (c.setEdge key e).marked? other = if key = other then some e.selected else c.marked? other := by
  unfold marked?
  rw [setEdge_getElem?]
  split <;> rfl

theorem joined_selectedEdge (c : Chart α) (spec : Edge) : (c.joined spec).selectedEdge = c.selectedEdge := by
  unfold joined
  split <;> rfl

/-- A new edge is not marked, and its key was not selected before, as only an
    edge that is there is. -/
theorem Coherent.addEdge (hc : c.Coherent) {key : String} {e : EdgeItem α} (hnew : c.edges[key]? = none)
    (he : e.selected = false) (hselected : c'.selectedEdge = c.selectedEdge)
    (hmarked : ∀ other, c'.marked? other = if key = other then some e.selected else c.marked? other) :
    c'.Coherent := by
  intro other
  rw [hselected, hmarked, ← hc other]
  split
  · rename_i heq
    subst heq
    simp [he, marked?, hnew]
  · exact Iff.rfl

theorem withoutEdge_marked? (c : Chart α) (key other : String) :
    (c.withoutEdge key).marked? other = if key = other then none else c.marked? other := by
  unfold marked?
  rw [withoutEdge_edges_getElem?]
  split <;> rfl

/-- Without the selected edge none is selected. -/
theorem withoutEdge_selectedEdge {key : String} (hkey : key ∈ c.edges) :
    (c.withoutEdge key).selectedEdge = if c.selectedEdge = some key then none else c.selectedEdge := by
  obtain ⟨e, he⟩ := Option.isSome_iff_exists.mp (Std.ExtTreeMap.mem_iff_isSome_getElem?.mp hkey)
  have hunlinked : ((c.unlink key e.edge.source).unlink key e.edge.target).selectedEdge = c.selectedEdge := rfl
  unfold withoutEdge
  rw [he]
  dsimp only
  rw [hunlinked]
  split
  · rfl
  · exact hunlinked

/-- An edge that is removed takes its selection along. -/
theorem Coherent.withoutEdge (hc : c.Coherent) (key : String) : (c.withoutEdge key).Coherent := by
  by_cases hkey : key ∈ c.edges
  · intro other
    rw [withoutEdge_marked?, withoutEdge_selectedEdge hkey]
    by_cases heq : key = other
    · subst heq
      rw [if_pos rfl]
      split
      · simp
      · rename_i hselected
        simpa using hselected
    · rw [if_neg heq, hc other]
      split
      · rename_i hselected
        simp [hselected, heq]
      · exact Iff.rfl
  · have hsame : c.withoutEdge key = c := by
      unfold Chart.withoutEdge
      rw [Std.ExtTreeMap.getElem?_eq_none hkey]
    rw [hsame]
    exact hc

/-- A node that is removed takes the selection of its edges along. -/
theorem Coherent.withoutNode (hc : c.Coherent) (id : String) : (c.withoutNode id).Coherent := by
  unfold Chart.withoutNode
  split
  · exact hc
  · rename_i n _
    have hedges : (n.edgeKeys.foldl Chart.withoutEdge c).Coherent :=
      List.foldlRecOn (motive := Coherent) _ _ hc fun d hd key _ => hd.withoutEdge key
    exact hedges.congr rfl fun _ => rfl

end Chart

namespace ChartStage

/-- The same edges are there with the same marks, and the same one is the
    selected edge. -/
structure SameMarks (s t : ChartStage α) : Prop where
  selectedEdge : t.picture.selectedEdge = s.picture.selectedEdge
  marked? : ∀ key, t.picture.marked? key = s.picture.marked? key

namespace SameMarks

variable {s t u : ChartStage α}

theorem refl (s : ChartStage α) : SameMarks s s :=
  ⟨rfl, fun _ => rfl⟩

theorem trans (h : SameMarks s t) (h' : SameMarks t u) : SameMarks s u :=
  ⟨h'.selectedEdge.trans h.selectedEdge, fun key => (h'.marked? key).trans (h.marked? key)⟩

/-- Changes that are made item by item leave the marks, if each of them does. -/
theorem foldl {ι : Type} {f : ChartStage α → ι → ChartStage α} (hf : ∀ s x, SameMarks s (f s x))
    (items : List ι) (s : ChartStage α) : SameMarks s (items.foldl f s) := by
  induction items generalizing s with
  | nil => exact refl s
  | cons x items ih => exact (hf s x).trans (ih (f s x))

/-- Two changes one after the other leave the marks, if each of them does. -/
theorem andThen {o : Outcome (ChartStage α)} {f : ChartStage α → Outcome (ChartStage α)}
    (ho : SameMarks s o.state) (hf : ∀ t, SameMarks t (f t).state) : SameMarks s (o.andThen f).state :=
  Outcome.andThen_state ho fun t ht => ht.trans (hf t)

/-- A chart whose marks were left alone is as coherent as it was. -/
theorem coherent (h : SameMarks s t) (hs : s.picture.Coherent) : t.picture.Coherent :=
  hs.congr h.selectedEdge h.marked?

/-- An edge is put in the place of one with the same mark. -/
theorem setEdge {key : String} {e : EdgeItem α} (e' : EdgeItem α) (he : s.picture.edges[key]? = some e)
    (hpicture : t.picture = s.picture.setEdge key e') (hmark : e'.selected = e.selected) : SameMarks s t := by
  refine ⟨(congrArg Chart.selectedEdge hpicture).trans rfl, fun other => ?_⟩
  rw [hpicture, Chart.setEdge_marked?]
  split
  · rename_i heq
    rw [← heq, Chart.marked?_of_getElem? he, hmark]
  · rfl

end SameMarks

variable [Scalar α] (s : ChartStage α)

section Unmarking

/-- Routing an edge leaves its mark, and those of the others. -/
theorem updateEdge_sameMarks (key : String) : SameMarks s (s.updateEdge key).state := by
  rcases updateEdge_cases s key with ⟨heq, -⟩ | ⟨e, ends, he, -, -, heq⟩
  · rw [heq]
    exact .refl s
  · rw [heq]
    exact .setEdge (e.routed ends) he rfl rfl

theorem updateEdges_sameMarks (keys : List String) : SameMarks s (s.updateEdges keys) :=
  .foldl updateEdge_sameMarks keys s

theorem notifyDependents_sameMarks (id : String) : SameMarks s (s.notifyDependents id) := by
  unfold notifyDependents
  split
  · exact s.updateEdges_sameMarks _
  · exact .refl s

theorem modifyNode_sameMarks (id : String) (f : NodeItem α → NodeItem α) :
    SameMarks s (s.modifyNode id f).state := by
  unfold modifyNode
  split
  · rw [set_drawNode]
    exact ⟨rfl, fun _ => rfl⟩
  · exact .refl s

theorem commitNode_sameMarks (id : String) : SameMarks s (s.commitNode id) := by
  unfold commitNode
  split
  · exact ⟨rfl, fun _ => rfl⟩
  · exact .refl s

theorem moveNode_sameMarks (id : String) (corner : Point α) : SameMarks s (s.moveNode id corner).state :=
  (s.modifyNode_sameMarks id _).andThen fun t => t.notifyDependents_sameMarks id

theorem resizeNode_sameMarks (id : String) (h : Handle) (step : Point α) :
    SameMarks s (s.resizeNode id h step).state :=
  (s.modifyNode_sameMarks id _).andThen fun t =>
    (t.notifyDependents_sameMarks id).trans (commitNode_sameMarks _ id)

theorem setSelected_sameMarks (id : String) (selected : Bool) :
    SameMarks s (s.setSelected id selected).state := by
  unfold setSelected
  split
  · split
    · exact .refl s
    · exact s.modifyNode_sameMarks id _
  · exact .refl s

theorem clearSelection_sameMarks : SameMarks s s.clearSelection.state :=
  Outcome.forEach_state (P := SameMarks s) (fun id _ t ht => ht.trans (t.setSelected_sameMarks id false))
    (.refl s)

/-- An edge that gets another shape keeps its mark, whatever is recorded
    first. -/
theorem reshaped_sameMarks {t : ChartStage α} {key : String} {e : EdgeItem α} {ends : Rect α × Rect α}
    (he : s.picture.edges[key]? = some e) (hpicture : t.picture = s.picture)
    (hends : s.picture.ends? e.edge = some ends) (shape : EdgeShape α) :
    SameMarks s
      (((t.set (t.picture.setEdge key { e with shape })).persistEdge e.edge shape).updateEdge key).state := by
  rw [← hpicture] at he hends
  rw [reshaped_eq hends]
  have hput : SameMarks t
      (Stage.draw
        { t with
          picture := t.picture.setEdge key (EdgeItem.routed { e with shape } ends)
          store := (t.store.updateEdge e.edge.key shape.toUpdate).routed { e with shape } ends }
        ((EdgeItem.routed { e with shape } ends).marks t.measure key)).state :=
    .setEdge (EdgeItem.routed { e with shape } ends) he rfl rfl
  exact ⟨hput.selectedEdge.trans (hpicture ▸ rfl), fun other => (hput.marked? other).trans (hpicture ▸ rfl)⟩

/-- Reshaping an edge leaves the marks, also if the surface stops it. -/
theorem reshapeEdge_sameMarks (key : String) (f : EdgeShape α → Rect α → Rect α → EdgeShape α) :
    SameMarks s (s.reshapeEdge key f).state := by
  unfold reshapeEdge
  cases he : s.picture.edges[key]? with
  | none => exact .refl s
  | some e =>
    dsimp only
    cases hends : s.picture.ends? e.edge with
    | none => exact .refl s
    | some ends => exact s.reshaped_sameMarks he rfl hends _

theorem setAnchor_sameMarks (key : String) (which : EdgeEnd) (p : Point α) :
    SameMarks s (s.setAnchor key which p).state := by
  unfold setAnchor
  exact s.reshapeEdge_sameMarks key _

theorem setControl_sameMarks (key : String) (index : Int) (p : Point α) :
    SameMarks s (s.setControl key index p).state := by
  unfold setControl
  exact s.reshapeEdge_sameMarks key _

theorem toggleCurve_sameMarks (key : String) : SameMarks s (s.toggleCurve key).state := by
  unfold toggleCurve
  cases he : s.picture.edges[key]? with
  | none => exact .refl s
  | some e =>
    dsimp only
    cases hends : s.picture.ends? e.edge with
    | none => exact .refl s
    | some ends =>
      dsimp only
      refine s.reshaped_sameMarks he ?_ hends _
      unfold completeShape
      split <;> rfl

theorem normalizeLayout_sameMarks : SameMarks s s.normalizeLayout := by
  have hnodes : SameMarks s (s.picture.nodes.keys.foldl (fun s id => (s.normalizeNode id).state) s) := by
    refine .foldl (fun t id => ?_) _ s
    exact (t.modifyNode_sameMarks id _).andThen fun u => u.commitNode_sameMarks id
  exact hnodes.trans (updateEdges_sameMarks _ _)

theorem restyle_sameMarks : SameMarks s s.restyle :=
  .foldl (fun t id => t.modifyNode_sameMarks id _) _ s

theorem placeNode_sameMarks (spec : Node) (index : Nat) : SameMarks s (s.placeNode spec index).state := by
  rw [placeNode_eq]
  exact ⟨rfl, fun _ => rfl⟩

end Unmarking

section Selecting

variable {s}

/-- An edge that is there is marked, and no other one changes. Nothing is
    refused, so that what comes next is done too. -/
theorem markEdge_marked? (haccepts : s.surface.Accepts) (key : String) (selected : Bool) :
    (s.markEdge key selected).refusal = none ∧ (s.markEdge key selected).state.surface.Accepts ∧
      (s.markEdge key selected).state.picture.selectedEdge = s.picture.selectedEdge ∧
      ∀ other, (s.markEdge key selected).state.picture.marked? other =
        if key = other then (s.picture.marked? other).map fun _ => selected else s.picture.marked? other := by
  unfold markEdge
  cases he : s.picture.edges[key]? with
  | none =>
    dsimp only
    refine ⟨rfl, haccepts, rfl, fun other => ?_⟩
    split
    · rename_i heq
      simp [Chart.marked?, ← heq, he]
    · rfl
  | some e =>
    dsimp only
    rw [set_drawEdge]
    refine ⟨haccepts.draw_refusal (EdgeItem.marks s.measure key { e with selected }), ?_, rfl, fun other => ?_⟩
    · rw [Stage.draw_surface]
      exact (Surface.draw_refused _ _).trans haccepts
    · rw [Stage.draw_picture, Chart.setEdge_marked?]
      split
      · rename_i heq
        rw [← heq, Chart.marked?_of_getElem? he]
        rfl
      · rfl

/-- Once the selected edge is taken out of the selection no edge is selected,
    and none is marked. -/
theorem coherent_deselectEdge (haccepts : s.surface.Accepts) (hs : s.picture.Coherent) :
    s.deselectEdge.refusal = none ∧ s.deselectEdge.state.surface.Accepts ∧
      s.deselectEdge.state.picture.selectedEdge = none ∧ s.deselectEdge.state.picture.Coherent := by
  unfold deselectEdge
  cases hselected : s.picture.selectedEdge with
  | none => exact ⟨rfl, haccepts, hselected, hs⟩
  | some key =>
    obtain ⟨hrefusal, haccepts', -, hmarked⟩ := markEdge_marked? haccepts key false
    dsimp only
    rw [Outcome.andThen_of_refusal_eq_none hrefusal]
    refine ⟨rfl, haccepts', rfl, fun other => ?_⟩
    have hunmarked : (s.markEdge key false).state.picture.marked? other ≠ some true := by
      rw [hmarked]
      split
      · cases s.picture.marked? other <;> simp
      · rename_i hne
        rw [ne_eq, hs other, hselected, Option.some.injEq]
        exact hne
    exact iff_of_false hunmarked (by simp [set])

/-- An edge is selected in place of the one that was. An edge that is not there
    is not selected. -/
theorem coherent_selectEdge (haccepts : s.surface.Accepts) (hs : s.picture.Coherent) (key : String) :
    (s.selectEdge key).state.picture.Coherent := by
  unfold selectEdge
  split
  · exact hs
  · obtain ⟨hrefusal, haccepts', hnone, hcoherent⟩ := coherent_deselectEdge haccepts hs
    rw [Outcome.andThen_of_refusal_eq_none hrefusal]
    generalize s.deselectEdge.state = t at *
    split
    · rename_i hthere
      let u : ChartStage α := t.set { t.picture with selectedEdge := some key }
      obtain ⟨-, -, hselected, hmarked⟩ := markEdge_marked? (s := u) haccepts' key true
      intro other
      have hbefore : u.picture.marked? other = t.picture.marked? other := rfl
      change (u.markEdge key true).state.picture.marked? other = some true ↔
        (u.markEdge key true).state.picture.selectedEdge = some other
      rw [hselected, hmarked, hbefore]
      by_cases heq : key = other
      · subst heq
        rw [if_pos rfl]
        have hsome : (t.picture.marked? key).isSome := by
          unfold Chart.marked?
          rw [Option.isSome_map]
          exact Std.ExtTreeMap.mem_iff_isSome_getElem?.mp (Std.ExtTreeMap.contains_iff_mem.mp hthere)
        obtain ⟨b, hb⟩ := Option.isSome_iff_exists.mp hsome
        simp [hb, u, set]
      · rw [if_neg heq, hcoherent other, hnone]
        simp [u, set, heq]
    · exact hcoherent

/-- A selected edge is taken out of the selection, and any other one is
    selected. -/
theorem coherent_toggleEdge (haccepts : s.surface.Accepts) (hs : s.picture.Coherent) (key : String) :
    (s.toggleEdge key).state.picture.Coherent := by
  unfold toggleEdge
  split
  · exact (coherent_deselectEdge haccepts hs).2.2.2
  · exact coherent_selectEdge haccepts hs key

/-- Every edit keeps the selected edge and the marks together. A refusal could
    stop a selection between the two, which is why there must be none. -/
theorem coherent_edit (haccepts : s.surface.Accepts) (hs : s.picture.Coherent) (e : ChartEdit α) :
    (s.edit e).state.picture.Coherent := by
  cases e with
  | moveNode id corner => exact (s.moveNode_sameMarks id corner).coherent hs
  | resizeNode id h step => exact (s.resizeNode_sameMarks id h step).coherent hs
  | commitNode id => exact (s.commitNode_sameMarks id).coherent hs
  | setSelected id selected => exact (s.setSelected_sameMarks id selected).coherent hs
  | clearSelection => exact s.clearSelection_sameMarks.coherent hs
  | selectEdge key => exact coherent_selectEdge haccepts hs key
  | deselectEdge => exact (coherent_deselectEdge haccepts hs).2.2.2
  | toggleEdge key => exact coherent_toggleEdge haccepts hs key
  | setAnchor key which p => exact (s.setAnchor_sameMarks key which p).coherent hs
  | setControl key index p => exact (s.setControl_sameMarks key index p).coherent hs
  | toggleCurve key => exact (s.toggleCurve_sameMarks key).coherent hs
  | notifyDependents id => exact (s.notifyDependents_sameMarks id).coherent hs
  | normalizeLayout => exact s.normalizeLayout_sameMarks.coherent hs

end Selecting

section Rendering

variable {s}

theorem coherent_placeEdge (hs : s.picture.Coherent) (spec : Edge) : (s.placeEdge spec).picture.Coherent := by
  rcases placeEdge_cases s spec with ⟨heq, -⟩ | ⟨ends, hnot, -, heq⟩
  · rw [heq]
    exact hs
  · rw [heq]
    refine hs.addEdge (e := s.newEdge spec ends) (Std.ExtTreeMap.getElem?_eq_none hnot) rfl ?_ fun other => ?_
    · rw [Stage.draw_picture]
      exact Chart.joined_selectedEdge s.picture spec
    · rw [Stage.draw_picture, Chart.setEdge_marked?]
      unfold Chart.marked?
      rw [Chart.joined_edges]

/-- A render removes and adds edges and leaves the marks of those that stay
    alone, whatever is refused. -/
theorem coherent_render (hs : s.picture.Coherent) (d : Flowchart) : (s.render d).picture.Coherent := by
  have hstart : (s.set { s.picture with classes := d.classes, direction := d.direction }).picture.Coherent :=
    hs.congr rfl fun _ => rfl
  have hpruned : (s.pruned d).picture.Coherent := by
    refine List.foldlRecOn (motive := fun t : ChartStage α => t.picture.Coherent) _ _ hstart fun t ht id _ => ?_
    rw [removeNode_picture]
    exact ht.withoutNode id
  have hpopulated : (s.populated d).picture.Coherent := by
    refine SameMarks.coherent ?_ hpruned
    exact .foldl (fun t (p : Node × Nat) => t.placeNode_sameMarks p.1 p.2) _ _
  have hconnected : (s.connected d).picture.Coherent :=
    List.foldlRecOn (motive := fun t : ChartStage α => t.picture.Coherent) _ _ hpopulated
      fun t ht spec _ => coherent_placeEdge ht spec
  have htrimmed : (s.trimmed d).picture.Coherent := by
    refine List.foldlRecOn (motive := fun t : ChartStage α => t.picture.Coherent) _ _ hconnected
      fun t ht key _ => ?_
    rw [removeEdge_picture]
    exact ht.withoutEdge key
  exact (updateEdges_sameMarks _ _).coherent htrimmed

end Rendering

end ChartStage

end LiveDiagram
