import LiveDiagram.Proofs.Chart.Writes
import Mathlib.Data.List.Induction

namespace LiveDiagram

variable {α : Type}

namespace Chart

/-- The rectangle of the node with that id. -/
def rect? (c : Chart α) (id : String) : Option (Rect α) :=
  c.nodes[id]?.map NodeItem.rect

theorem rect?_eq_bare? (c : Chart α) (id : String) : c.rect? id = (c.bare? id).map NodeItem.rect := by
  rw [rect?, bare?, Option.map_map]
  rfl

theorem rect?_of_nodes_eq {c c' : Chart α} (h : c'.nodes = c.nodes) : c'.rect? = c.rect? := by
  funext id
  rw [rect?, rect?, h]

theorem setNode_rect? (c : Chart α) (id other : String) (n : NodeItem α) :
    (c.setNode id n).rect? other = if id = other then some n.rect else c.rect? other := by
  rw [rect?, setNode_getElem?]
  split <;> rfl

/-- The selected nodes are those that are marked as selected. -/
theorem mem_selectedNodes {c : Chart α} {id : String} :
    id ∈ c.selectedNodes ↔ ∃ n, c.nodes[id]? = some n ∧ n.selected = true := by
  rw [selectedNodes, List.mem_map]
  constructor
  · rintro ⟨⟨other, n⟩, hn, rfl⟩
    obtain ⟨hmem, hselected⟩ := List.mem_filter.mp hn
    exact ⟨n, Std.ExtTreeMap.mem_toList_iff_getElem?_eq_some.mp hmem, hselected⟩
  · rintro ⟨n, hn, hselected⟩
    exact ⟨(id, n),
      List.mem_filter.mpr ⟨Std.ExtTreeMap.mem_toList_iff_getElem?_eq_some.mpr hn, hselected⟩, rfl⟩

theorem nodup_selectedNodes (c : Chart α) : c.selectedNodes.Nodup := by
  have hkeys : (c.nodes.toList.map Prod.fst).Nodup := by
    rw [Std.ExtTreeMap.map_fst_toList_eq_keys]
    exact Std.ExtTreeMap.nodup_keys
  exact hkeys.sublist (List.filter_sublist.map Prod.fst)

end Chart

/-- The rectangle with its corner at a point. -/
def Rect.at (r : Rect α) (corner : Point α) : Rect α :=
  { r with x := corner.x, y := corner.y }

namespace Outcome

variable {σ ι : Type}

theorem forEach_append_singleton (items : List ι) (item : ι) (f : ι → σ → Outcome σ) (s : σ) :
    forEach (items ++ [item]) f s = (forEach items f s).andThen (f item) := by
  unfold forEach
  rw [List.foldl_append]
  rfl

end Outcome

variable [Scalar α]

/-- The rectangle, moved by a step. -/
def Rect.shift (r : Rect α) (step : Point α) : Rect α :=
  r.at ⟨r.x + step.x, r.y + step.y⟩

/-- The node with the rectangle that normalizing gives it. -/
def NodeItem.fitted (measure : Measure α) (n : NodeItem α) : NodeItem α :=
  { n with rect := Layout.normalized n.rect (measure n.label) }

namespace ChartStage

section Selecting

variable (s : ChartStage α)

/-- A change of one node, as far as it changes the rectangle. It is made before
    the node is drawn, so a refusal does not undo it. -/
theorem modifyNode_rect? {f : NodeItem α → NodeItem α} {g : Rect α → Rect α}
    (hf : ∀ n, (f n).rect = g n.rect)
    (id other : String) :
    (s.modifyNode id f).state.picture.rect? other =
      if id = other then (s.picture.rect? id).map g else s.picture.rect? other := by
  unfold modifyNode
  cases hn : s.picture.nodes[id]? with
  | none =>
    have hnone : s.picture.rect? id = none := by rw [Chart.rect?, hn, Option.map_none]
    by_cases h : id = other
    · rw [if_pos h, hnone, ← h]
      exact hnone
    · rw [if_neg h]
      rfl
  | some n =>
    have hrect : s.picture.rect? id = some n.rect := by rw [Chart.rect?, hn, Option.map_some]
    dsimp only
    rw [set_drawNode, Stage.draw_picture, Chart.setNode_rect?, hrect, hf, Option.map_some]

/-- A change of a node other than of its rectangle leaves all rectangles. -/
theorem modifyNode_rect?_of_rect_eq (id : String) {f : NodeItem α → NodeItem α}
    (hf : ∀ n, (f n).rect = n.rect) :
    (s.modifyNode id f).state.picture.rect? = s.picture.rect? := by
  funext other
  rw [s.modifyNode_rect? (g := fun r => r) hf, Option.map_id']
  split
  · rename_i heq
    rw [heq]
  · rfl

theorem setSelected_rect? (id : String) (selected : Bool) :
    (s.setSelected id selected).state.picture.rect? = s.picture.rect? := by
  unfold setSelected
  split
  · split
    · rfl
    · exact s.modifyNode_rect?_of_rect_eq id fun _ => rfl
  · rfl

theorem clearSelection_rect? : s.clearSelection.state.picture.rect? = s.picture.rect? :=
  Outcome.forEach_state (P := fun t : ChartStage α => t.picture.rect? = s.picture.rect?)
    (fun id _ t ht => (t.setSelected_rect? id false).trans ht) rfl

theorem markEdge_rect? (key : String) (selected : Bool) :
    (s.markEdge key selected).state.picture.rect? = s.picture.rect? := by
  unfold markEdge
  split
  · rw [set_drawEdge]
    rfl
  · rfl

theorem deselectEdge_rect? : s.deselectEdge.state.picture.rect? = s.picture.rect? := by
  unfold deselectEdge
  split
  · rfl
  · exact Outcome.andThen_state (P := fun t : ChartStage α => t.picture.rect? = s.picture.rect?)
      (s.markEdge_rect? _ false) fun _ ht => ht

theorem selectEdge_rect? (key : String) : (s.selectEdge key).state.picture.rect? = s.picture.rect? := by
  unfold selectEdge
  split
  · rfl
  · refine Outcome.andThen_state (P := fun t : ChartStage α => t.picture.rect? = s.picture.rect?)
      s.deselectEdge_rect? fun t ht => ?_
    split
    · exact (markEdge_rect? _ key true).trans ht
    · exact ht

theorem toggleEdge_rect? (key : String) : (s.toggleEdge key).state.picture.rect? = s.picture.rect? := by
  unfold toggleEdge
  split
  · exact s.deselectEdge_rect?
  · exact s.selectEdge_rect? key

end Selecting

section Reshaping

variable (s : ChartStage α)

theorem updateEdge_nodes (key : String) : (s.updateEdge key).state.picture.nodes = s.picture.nodes := by
  rw [updateEdge_picture, Chart.rerouted_nodes]

theorem reshapeEdge_rect? (key : String) (f : EdgeShape α → Rect α → Rect α → EdgeShape α) :
    (s.reshapeEdge key f).state.picture.rect? = s.picture.rect? := by
  unfold reshapeEdge
  split
  · rfl
  · split
    · rfl
    · exact Chart.rect?_of_nodes_eq (updateEdge_nodes _ key)

theorem setAnchor_rect? (key : String) (which : EdgeEnd) (p : Point α) :
    (s.setAnchor key which p).state.picture.rect? = s.picture.rect? :=
  s.reshapeEdge_rect? key _

theorem setControl_rect? (key : String) (index : Int) (p : Point α) :
    (s.setControl key index p).state.picture.rect? = s.picture.rect? :=
  s.reshapeEdge_rect? key _

/-- Routing an edge is not stopped on a surface that refuses nothing. -/
theorem updateEdge_refusal {s : ChartStage α} (haccepts : s.surface.Accepts) (key : String) :
    (s.updateEdge key).refusal = none := by
  rcases updateEdge_cases s key with ⟨heq, -⟩ | ⟨e, ends, -, -, -, heq⟩
  · rw [heq]
    rfl
  · rw [heq]
    exact haccepts.draw_refusal ((e.routed ends).marks s.measure key)

/-- Reshaping an edge is not stopped on a surface that refuses nothing. -/
theorem reshapeEdge_refusal {s : ChartStage α} (haccepts : s.surface.Accepts) (key : String)
    (f : EdgeShape α → Rect α → Rect α → EdgeShape α) : (s.reshapeEdge key f).refusal = none := by
  unfold reshapeEdge
  split
  · rfl
  · split
    · rfl
    · rename_i e _ _ source target _
      let shape := f e.shape source target
      let t : ChartStage α := (s.set (s.picture.setEdge key { e with shape })).persistEdge e.edge shape
      exact updateEdge_refusal (s := t) haccepts key

theorem completeShape_nodes (e : Edge) (shape : EdgeShape α) (source target : Rect α) :
    (s.completeShape e shape source target).1.picture.nodes = s.picture.nodes := by
  unfold completeShape
  split <;> rfl

theorem toggleCurve_rect? (key : String) : (s.toggleCurve key).state.picture.rect? = s.picture.rect? := by
  unfold toggleCurve
  split
  · rfl
  · split
    · rfl
    · rename_i e _ _ source target _
      have hcompleted := s.completeShape_nodes e.edge { e.shape with curved := !e.shape.curved } source target
      exact Chart.rect?_of_nodes_eq ((updateEdge_nodes _ key).trans hcompleted)

end Reshaping

section Moving

variable (s : ChartStage α)

/-- Changing a node is not stopped on a surface that refuses nothing. -/
theorem modifyNode_refusal {s : ChartStage α} (haccepts : s.surface.Accepts) (id : String)
    (f : NodeItem α → NodeItem α) : (s.modifyNode id f).refusal = none := by
  unfold modifyNode
  split
  · rename_i n _
    rw [set_drawNode]
    exact haccepts.draw_refusal ((f n).marks id)
  · rfl

theorem notifyDependents_rect? (id : String) :
    (s.notifyDependents id).picture.rect? = s.picture.rect? :=
  Chart.rect?_of_nodes_eq (s.notifyDependents_nodes id)

/-- The edges at a node that was changed follow it, which moves no other
    node. -/
theorem modifyNode_notifyDependents_rect? {f : NodeItem α → NodeItem α} {g : Rect α → Rect α}
    (hf : ∀ n, (f n).rect = g n.rect) (id other : String) :
    ((s.modifyNode id f).andThen fun t => .done (t.notifyDependents id)).state.picture.rect? other =
      if id = other then (s.picture.rect? id).map g else s.picture.rect? other := by
  rw [← s.modifyNode_rect? hf]
  exact Outcome.andThen_state
    (P := fun t : ChartStage α => t.picture.rect? other = (s.modifyNode id f).state.picture.rect? other) rfl
    fun t ht => (congrFun (t.notifyDependents_rect? id) other).trans ht

/-- A moved node has its corner at the given point, and no other node moves.
    Where there is no node, nothing happens. -/
theorem moveNode_rect? (id other : String) (corner : Point α) :
    (s.moveNode id corner).state.picture.rect? other =
      if id = other then (s.picture.rect? id).map fun r => r.at corner else s.picture.rect? other :=
  s.modifyNode_notifyDependents_rect? (fun _ => rfl) id other

theorem moveNode_refusal {s : ChartStage α} (haccepts : s.surface.Accepts) (id : String) (corner : Point α) :
    (s.moveNode id corner).refusal = none := by
  rw [moveNode, Outcome.andThen_of_refusal_eq_none (modifyNode_refusal haccepts id _)]
  rfl

theorem commitNode_rect? (id : String) : (s.commitNode id).picture.rect? = s.picture.rect? := by
  rw [commitNode_picture]

/-- A resized node has its rectangle resized at the handle, and no other node
    changes. -/
theorem resizeNode_rect? (id other : String) (h : Handle) (step : Point α) :
    (s.resizeNode id h step).state.picture.rect? other =
      if id = other then (s.picture.rect? id).map fun r => r.resize h step Layout.minNodeSize
      else s.picture.rect? other := by
  rw [← s.modifyNode_rect? (f := fun n => { n with rect := n.rect.resize h step Layout.minNodeSize })
    (g := fun r => r.resize h step Layout.minNodeSize) fun _ => rfl]
  refine Outcome.andThen_state
    (P := fun t : ChartStage α => t.picture.rect? other = (s.modifyNode id _).state.picture.rect? other) rfl
    fun t ht => ?_
  rw [Outcome.done_state, commitNode_rect?, notifyDependents_rect?]
  exact ht

theorem resizeNode_refusal {s : ChartStage α} (haccepts : s.surface.Accepts) (id : String) (h : Handle)
    (step : Point α) : (s.resizeNode id h step).refusal = none := by
  rw [resizeNode, Outcome.andThen_of_refusal_eq_none (modifyNode_refusal haccepts id _)]
  rfl

/-- A resized node is recorded as it then is. Where there is no node, nothing is
    recorded. -/
theorem resizeNode_node? {s : ChartStage α} (hs : s.picture.Complete) (haccepts : s.surface.Accepts)
    (id other : String) (h : Handle) (step : Point α) :
    (s.resizeNode id h step).state.store.node? other =
      if id = other then ((s.resizeNode id h step).state.picture.rect? id).or (s.store.node? id)
      else s.store.node? other := by
  cases hn : s.picture.nodes[id]? with
  | none =>
    have hmodify : s.modifyNode id (fun n => { n with rect := n.rect.resize h step Layout.minNodeSize }) =
        .done s := by rw [modifyNode, hn]
    have hstate : (s.resizeNode id h step).state = s := by
      rw [resizeNode, hmodify, Outcome.andThen_of_refusal_eq_none rfl]
      simp only [Outcome.done_state, notifyDependents, hn, commitNode]
    rw [hstate, Chart.rect?, hn]
    by_cases heq : id = other
    · simp [heq]
    · simp [heq]
  | some n =>
    obtain ⟨n', hn', hcommits⟩ := resizeNode_commits hs haccepts hn h step
    rw [hcommits.node?, Chart.rect?, hn']
    rfl

theorem normalizeNode_of_getElem?_eq_none {s : ChartStage α} {id : String} (hn : s.picture.nodes[id]? = none) :
    s.normalizeNode id = .done s := by
  rw [normalizeNode, modifyNode, hn, Outcome.andThen_of_refusal_eq_none rfl]
  simp only [Outcome.done_state, commitNode, hn]

/-- A node that is normalized is fitted to its label, drawn and recorded. -/
theorem normalizeNode_eq {s : ChartStage α} (haccepts : s.surface.Accepts) {id : String} {n : NodeItem α}
    (hn : s.picture.nodes[id]? = some n) :
    (s.normalizeNode id).state =
      ((Stage.draw { s with picture := s.picture.setNode id (n.fitted s.measure) }
        ((n.fitted s.measure).marks id)).state.commit id (n.fitted s.measure).rect) := by
  have hmodify : s.modifyNode id (fun n => { n with rect := Layout.normalized n.rect (s.measure n.label) }) =
      Stage.draw { s with picture := s.picture.setNode id (n.fitted s.measure) }
        ((n.fitted s.measure).marks id) := by
    rw [modifyNode, hn]
    exact set_drawNode s id (n.fitted s.measure)
  rw [normalizeNode, hmodify,
    Outcome.andThen_of_refusal_eq_none (haccepts.draw_refusal ((n.fitted s.measure).marks id))]
  simp [commitNode]

/-- Moves of nodes, one after the other, record nothing. Of several moves of one
    node the last one counts. The induction is on the moves from the last one
    on, so that it comes on top of the others. -/
theorem forEach_moveNode {s : ChartStage α} (hs : s.picture.Linked ∧ s.picture.Complete)
    (haccepts : s.surface.Accepts) (moves : List (String × Point α)) (corner : Point α → Point α) :
    (Outcome.forEach moves (fun x t => moveNode t x.1 (corner x.2)) s).refusal = none ∧
    (Outcome.forEach moves (fun x t => moveNode t x.1 (corner x.2)) s).state.store = s.store ∧
    ∀ id, (Outcome.forEach moves (fun x t => moveNode t x.1 (corner x.2)) s).state.picture.rect? id =
      (s.picture.rect? id).map fun r =>
        match moves.reverse.find? fun x => x.1 == id with
        | some x => r.at (corner x.2)
        | none => r := by
  induction moves using List.reverseRecOn with
  | nil => exact ⟨rfl, rfl, fun id => Option.map_id'.symm⟩
  | append_singleton moves x ih =>
    obtain ⟨hrefusal, hstore, hrect⟩ := ih
    have hsteps : Steps (fun _ => True) s
        (Outcome.forEach moves (fun x t => moveNode t x.1 (corner x.2)) s).state :=
      Outcome.forEach_state (P := Steps (fun _ => True) s)
        (fun x _ t ht => ht.trans (t.moveNode_steps x.1 (corner x.2))) .refl
    rw [Outcome.forEach_append_singleton, Outcome.andThen_of_refusal_eq_none hrefusal]
    generalize (Outcome.forEach moves (fun x t => moveNode t x.1 (corner x.2)) s).state = t at *
    have hcomplete : t.picture.Complete := (hsteps.linked_complete hs).2
    refine ⟨moveNode_refusal (hsteps.sameSetup.accepts haccepts) x.1 _, ?_, fun id => ?_⟩
    · exact (moveNode_quiet hcomplete x.1 _).store.trans hstore
    · rw [moveNode_rect?, hrect, hrect, List.reverse_append, List.reverse_singleton, List.singleton_append,
        List.find?_cons]
      by_cases hx : x.1 = id
      · rw [if_pos hx, hx, beq_self_eq_true, Option.map_map]
        congr 1
        funext r
        simp only [Function.comp]
        split <;> rfl
      · rw [if_neg hx, beq_eq_false_iff_ne.mpr hx]

/-- Recording several nodes leaves them where they are, and records each of them
    there. -/
theorem foldl_commitNode (moves : List (String × Point α)) :
    (moves.foldl (fun t x => commitNode t x.1) s).picture = s.picture ∧
    ∀ id, (moves.foldl (fun t x => commitNode t x.1) s).store.node? id =
      if id ∈ moves.map Prod.fst then (s.picture.rect? id).or (s.store.node? id) else s.store.node? id := by
  induction moves generalizing s with
  | nil => exact ⟨rfl, fun id => by simp⟩
  | cons x moves ih =>
    have hpicture := commitNode_picture s x.1
    obtain ⟨hrest, hnode⟩ := ih (s.commitNode x.1)
    refine ⟨hrest.trans hpicture, fun id => ?_⟩
    have hfirst : (s.commitNode x.1).store.node? id =
        if x.1 = id then (s.picture.rect? id).or (s.store.node? id) else s.store.node? id := by
      cases hn : s.picture.nodes[x.1]? with
      | none =>
        rw [commitNode, hn, Chart.rect?]
        by_cases hx : x.1 = id
        · rw [if_pos hx, ← hx, hn]
          rfl
        · rw [if_neg hx]
      | some n =>
        rw [(commitNode_commits hn).node?, Chart.rect?]
        by_cases hx : x.1 = id
        · rw [if_pos hx, if_pos hx, ← hx, hn]
          rfl
        · rw [if_neg hx, if_neg hx]
    rw [List.foldl_cons, hnode, hfirst, hpicture, List.map_cons]
    by_cases hx : x.1 = id
    · cases s.picture.rect? id <;> simp [hx]
    · have hmem : id ∈ x.1 :: moves.map Prod.fst ↔ id ∈ moves.map Prod.fst := by simp [Ne.symm hx]
      rw [if_neg hx]
      simp only [hmem]

end Moving

section Rendering

/-- A node that stays on the chart stays where it is; a new one gets its
    recorded place, or else that of its index. -/
theorem render_rect? (s : ChartStage α) (d : Flowchart) (id : String) :
    (s.render d).picture.rect? id =
      if id ∈ d.nodeIds then
        some ((s.picture.rect? id).getD
          (match s.store.node? id with
          | some r => recordedRect r
          | none => Layout.nodeRect (d.firstIndex id) d.direction))
      else none := by
  rw [Chart.rect?_eq_bare?, render_bare?]
  cases hlast : d.lastNode? id with
  | none =>
    rw [if_neg (Flowchart.lastNode?_eq_none.mp hlast)]
    rfl
  | some last =>
    have hmem : id ∈ d.nodeIds := by
      rw [← Flowchart.lastNode?_isSome, hlast]
      rfl
    rw [if_pos hmem, Option.map_some, Option.map_some, Chart.rect?_eq_bare?]
    unfold restated placedAs
    cases s.picture.bare? id with
    | none =>
      rw [Flowchart.id_of_lastNode? hlast]
      refine congrArg some ((s.pruned_initialRect d id (d.firstIndex id)).trans ?_)
      cases s.store.node? id <;> rfl
    | some n => rfl

end Rendering

end ChartStage

end LiveDiagram
