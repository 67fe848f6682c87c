import LiveDiagram.Proofs.Chart.RenderWrites
import LiveDiagram.Proofs.Chart.Selection
import LiveDiagram.Proofs.Pointer.Tracked
import LiveDiagram.Proofs.Session.Document

namespace LiveDiagram

variable {α : Type}

/-- The first of two things for the start of an edge and the second one for its
    end. -/
def EdgeEnd.pick {β : Type} (ends : β × β) : EdgeEnd → β
  | start => ends.1
  | finish => ends.2

/-- The node at which an end of the edge is. -/
def Edge.nodeAt (e : Edge) : EdgeEnd → String
  | .start => e.source
  | .finish => e.target

/-- The offset of an end of the edge from the center of its node, if it was
    dragged. -/
def EdgeShape.offset? (e : EdgeShape α) : EdgeEnd → Option (Point α)
  | .start => e.startOffset
  | .finish => e.endOffset

/-- Where the route has an end. -/
def Route.endPoint (r : Route α) : EdgeEnd → Point α
  | .start => r.start
  | .finish => r.finish

/-- The width and height of the rectangle. -/
def Rect.extent (r : Rect α) : Extent α :=
  ⟨r.width, r.height⟩

/-- The node at which an end of the edge with that key is, with its
    rectangle. -/
def Chart.nodeAt? (c : Chart α) (key : String) (which : EdgeEnd) : Option (String × Rect α) :=
  c.edges[key]?.bind fun e => (c.rect? (e.edge.nodeAt which)).map fun r => (e.edge.nodeAt which, r)

variable [Scalar α]

section Shapes

variable {e : EdgeShape α} {which : EdgeEnd}

/-- Completing a shape gives it controls, and leaves the offsets of its ends. -/
theorem EdgeShape.offset?_completed (e : EdgeShape α) (source target : Rect α) (which : EdgeEnd) :
    (e.completed source target).offset? which = e.offset? which := by
  unfold completed
  split
  · cases which <;> rfl
  · rfl

theorem EdgeShape.offset?_withControls (e : EdgeShape α) (source target : Rect α) (which : EdgeEnd) :
    (e.withControls source target).offset? which = e.offset? which := by
  cases which <;> rfl

/-- A dragged end of a route is where its offset from the center of its node
    says. This holds of straight routes and of curves, as only the controls
    differ. -/
theorem EdgeShape.endPoint_route (ends : Rect α × Rect α) {offset : Point α}
    (hoffset : e.offset? which = some offset) :
    (e.route ends.1 ends.2).endPoint which = (which.pick ends).center + offset := by
  have hends : (e.route ends.1 ends.2).start = e.start ends.1 ends.2 ∧
      (e.route ends.1 ends.2).finish = e.finish ends.1 ends.2 := by
    unfold route
    dsimp only
    split <;> exact ⟨rfl, rfl⟩
  cases which with
  | start =>
    have hstart : e.startOffset = some offset := hoffset
    show (e.route ends.1 ends.2).start = _
    rw [hends.1, start, hstart]
    rfl
  | finish =>
    have hfinish : e.endOffset = some offset := hoffset
    show (e.route ends.1 ends.2).finish = _
    rw [hends.2, finish, hfinish]
    rfl

end Shapes

namespace ChartStage

variable {s : ChartStage α}

/-- The offset that the store records for an end of an edge. Without a record
    the end was never dragged. -/
def offset? (s : ChartStage α) (key : String) (which : EdgeEnd) : Option (Point α) :=
  ((s.store.edge? key).getD {}).offset? which

theorem offset?_congr {t : ChartStage α} {key : String} (h : t.store.edge? key = s.store.edge? key)
    (which : EdgeEnd) :
    t.offset? key which = s.offset? key which := by
  rw [offset?, h, offset?]

omit [Scalar α] in
/-- The two rectangles of an edge on the chart are those of its nodes. -/
theorem nodeAt?_of_ends? {key : String} {e : EdgeItem α} (he : s.picture.edges[key]? = some e)
    {ends : Rect α × Rect α} (hends : s.picture.ends? e.edge = some ends) (which : EdgeEnd) :
    s.picture.nodeAt? key which = some (e.edge.nodeAt which, which.pick ends) := by
  unfold Chart.ends? at hends
  split at hends
  · rename_i n m hn hm
    obtain rfl := Option.some.inj hends
    rw [Chart.nodeAt?, he, Option.bind_some, Chart.rect?]
    cases which with
    | start =>
      show (s.picture.nodes[e.edge.source]?.map NodeItem.rect).map _ = _
      rw [hn]
      rfl
    | finish =>
      show (s.picture.nodes[e.edge.target]?.map NodeItem.rect).map _ = _
      rw [hm]
      rfl
  · cases hends

section Offsets

/-- A render leaves the offsets in the store. It may record an edge again, but
    then with the controls that were missing and with the same ends. -/
theorem render_offset? (hcomplete : s.picture.Complete) (d : Flowchart) (key : String) (which : EdgeEnd) :
    (s.render d).offset? key which = s.offset? key which := by
  rcases (render_completesRecords d hcomplete).store.edge? key with hsame | ⟨shape, source, target, hs, -, ht⟩
  · exact offset?_congr hsame which
  · rw [offset?, ht, offset?, hs]
    exact shape.offset?_withControls source target which

theorem commitNode_edge? (s : ChartStage α) (id key : String) :
    (s.commitNode id).store.edge? key = s.store.edge? key := by
  unfold commitNode
  split
  · exact s.store.edge?_setNode _ _ _
  · rfl

/-- Resizing a node routes its edges again and records none of them: on a
    complete chart none of them lacks its controls. -/
theorem resizeNode_edge? (hcomplete : s.picture.Complete) (id : String) (h : Handle) (step : Point α)
    (key : String) :
    (s.resizeNode id h step).state.store.edge? key = s.store.edge? key := by
  have hresized := s.modifyNode_quiet id fun n => { n with rect := n.rect.resize h step Layout.minNodeSize }
  refine (Outcome.andThen_state
    (P := fun t : ChartStage α => t.picture.Complete ∧ t.store.edge? key = s.store.edge? key)
    ⟨hresized.complete hcomplete, by rw [hresized.store]⟩ fun t ht => ?_).2
  have hrouted := notifyDependents_quiet ht.1 id
  refine ⟨commitNode_complete (hrouted.complete ht.1) id, ?_⟩
  rw [Outcome.done_state, commitNode_edge?, hrouted.store]
  exact ht.2

theorem normalizeNode_edge? (s : ChartStage α) (id key : String) :
    (s.normalizeNode id).state.store.edge? key = s.store.edge? key := by
  have hquiet := s.modifyNode_quiet id fun n => { n with rect := Layout.normalized n.rect (s.measure n.label) }
  refine Outcome.andThen_state (P := fun t : ChartStage α => t.store.edge? key = s.store.edge? key)
    (by rw [hquiet.store]) fun t ht => ?_
  rw [Outcome.done_state, commitNode_edge?]
  exact ht

/-- Normalizing the layout leaves what is recorded of edges, also where it
    routes them again. The shapes are complete, and they are what is recorded
    already. -/
theorem normalizeLayout_edge? (hcomplete : s.picture.Complete) (hrecorded : s.Recorded) (key : String) :
    s.normalizeLayout.store.edge? key = s.store.edge? key := by
  obtain ⟨hcomplete', -, hedge⟩ := List.foldlRecOn
    (motive := fun t : ChartStage α => t.picture.Complete ∧ t.Recorded ∧ t.store.edge? key = s.store.edge? key)
    s.picture.nodes.keys (fun t id => (t.normalizeNode id).state) ⟨hcomplete, hrecorded, rfl⟩
    fun t ht id _ => by
      obtain ⟨hcomplete', hrecorded'⟩ := ht.2.1.normalizeNode ht.1 id
      exact ⟨hcomplete', hrecorded', (t.normalizeNode_edge? id key).trans ht.2.2⟩
  rw [normalizeLayout, (updateEdges_quiet hcomplete' _).store]
  exact hedge

/-- An edge that is reshaped has the offsets of its new shape recorded. That all
    is recorded afterwards is a premise here and not shown, because it holds for
    each reshaping for its own reason. -/
theorem reshapeEdge_offset? {key : String} {e : EdgeItem α} (he : s.picture.edges[key]? = some e)
    {ends : Rect α × Rect α} (hends : s.picture.ends? e.edge = some ends)
    {f : EdgeShape α → Rect α → Rect α → EdgeShape α} (hrecorded : (s.reshapeEdge key f).state.Recorded)
    (which : EdgeEnd) :
    (s.reshapeEdge key f).state.offset? key which = (f e.shape ends.1 ends.2).offset? which := by
  have hshape : (s.reshapeEdge key f).state.shape? key =
      some ((f e.shape ends.1 ends.2).completed ends.1 ends.2) := by
    unfold reshapeEdge
    rw [he]
    dsimp only
    rw [hends]
    dsimp only
    rw [reshaped_eq hends, shape?, Stage.draw_picture, Chart.setEdge_getElem?, if_pos rfl]
    rfl
  rw [offset?, (hrecorded key _ hshape).2]
  exact EdgeShape.offset?_completed ..

/-- Dragging an end of an edge that is on the chart keeps it as the offset of
    the point of the border towards which it was dragged. No other offset
    changes. On a linked chart both nodes of the edge are there, so the drag
    does not fail halfway. -/
theorem setAnchor_offset? (hlinked : s.picture.Linked) (hrecorded : s.Recorded) (key : String) (which : EdgeEnd)
    (p : Point α) (other : String) (end' : EdgeEnd) :
    (s.setAnchor key which p).state.offset? other end' =
      if key = other ∧ which = end' then
        match s.picture.nodeAt? key which with
        | some (_, r) => some (r.borderPoint p - r.center)
        | none => s.offset? other end'
      else s.offset? other end' := by
  have hreshapes := setAnchor_reshapes hlinked key which p
  by_cases hkey : key = other
  · subst hkey
    have hrecorded' := hreshapes.recorded hrecorded
    cases he : s.picture.edges[key]? with
    | none =>
      have hstate : (s.setAnchor key which p).state = s := by
        rw [setAnchor, reshapeEdge, he]
        rfl
      have hnone : s.picture.nodeAt? key which = none := by rw [Chart.nodeAt?, he, Option.bind_none]
      rw [hstate, hnone]
      split <;> rfl
    | some e =>
      obtain ⟨ends, hends⟩ := Option.isSome_iff_exists.mp (hlinked.ends?_isSome he)
      rw [nodeAt?_of_ends? he hends which, setAnchor, reshapeEdge_offset? he hends hrecorded']
      have hbefore : s.offset? key end' = e.shape.offset? end' := by
        rw [offset?, (hrecorded key _ (shape?_of_getElem? he)).2]
      rw [hbefore]
      cases which <;> cases end' <;> simp [EdgeShape.offset?, EdgeEnd.pick]
  · rw [if_neg fun h => hkey h.1]
    exact offset?_congr (hreshapes.edge? other hkey) end'

end Offsets

section Sizes

/-- The size with which the node with that id comes onto the chart: the recorded
    one, or else the default. Recorded sizes that are not positive are replaced
    by the default too. -/
def placedExtent (s : ChartStage α) (id : String) : Extent α :=
  match s.store.node? id with
  | some r => (recordedRect r).extent
  | none => ⟨Layout.nodeWidth, Layout.nodeHeight⟩

/-- Every node has the size with which it would come onto the chart. Only
    resizing and normalizing change a size, and both record the size that the
    node then has. -/
def SizesKept (s : ChartStage α) : Prop :=
  ∀ id r, s.picture.rect? id = some r → r.extent = s.placedExtent id

/-- The size with which a node comes onto the chart is read off its record. -/
theorem placedExtent_congr {t : ChartStage α} {id : String} (h : t.store.node? id = s.store.node? id) :
    t.placedExtent id = s.placedExtent id := by
  rw [placedExtent, h, placedExtent]

/-- A node that is recorded with a width and a height comes onto the chart with
    these. -/
theorem placedExtent_recorded {id : String} {r : Rect α} (hr : r.Sized) (h : s.store.node? id = some r) :
    s.placedExtent id = r.extent := by
  rw [placedExtent, h]
  exact congrArg Rect.extent (recordedRect_of_pos hr.1 hr.2)

/-- A node never comes onto the chart without a width or a height. With inexact
    numbers the default size need not be positive. -/
theorem recordedRect_sized (hexact : Scalar.Exact α) (r : Rect α) : (recordedRect r).Sized := by
  constructor
  · unfold recordedRect
    dsimp only
    split
    · assumption
    · exact hexact.ofNat_pos 159
  · unfold recordedRect
    dsimp only
    split
    · assumption
    · exact hexact.ofNat_pos 59

/-- A node of such a chart has a width and a height. -/
theorem SizesKept.sized (hexact : Scalar.Exact α) (hs : s.SizesKept) {id : String} {r : Rect α}
    (hr : s.picture.rect? id = some r) : r.Sized := by
  have hpos : 0 < (s.placedExtent id).width ∧ 0 < (s.placedExtent id).height := by
    unfold placedExtent
    split
    · exact recordedRect_sized hexact _
    · exact ⟨hexact.ofNat_pos 159, hexact.ofNat_pos 59⟩
  rw [← hs id r hr] at hpos
  exact hpos

/-- Nodes keep their sizes as long as their records stay and each of them has
    the size of a node that was there. -/
theorem SizesKept.congr {t : ChartStage α} (hs : s.SizesKept) (hnode : ∀ id, t.store.node? id = s.store.node? id)
    (hrect : ∀ id r', t.picture.rect? id = some r' →
      ∃ r, s.picture.rect? id = some r ∧ r'.extent = r.extent) :
    t.SizesKept := by
  intro id r' hr'
  obtain ⟨r, hr, hextent⟩ := hrect id r' hr'
  rw [hextent, hs id r hr, placedExtent_congr (hnode id)]

/-- The default place of a node has the default size, wherever it is. -/
theorem nodeRect_extent (index : Nat) (direction : Direction) :
    (Layout.nodeRect index direction : Rect α).extent = ⟨Layout.nodeWidth, Layout.nodeHeight⟩ := by
  unfold Layout.nodeRect
  split <;> rfl

/-- A render keeps the sizes: a node that was there keeps its rectangle, and a
    new one gets the size with which it comes onto the chart. Whether the
    surface refuses something does not matter. -/
theorem SizesKept.render (hs : s.SizesKept) (hcomplete : s.picture.Complete) (d : Flowchart) :
    (s.render d).SizesKept := by
  intro id r' hr'
  rw [placedExtent_congr ((render_completesRecords d hcomplete).store.node? id)]
  rw [render_rect?] at hr'
  split at hr'
  · have hrect := Option.some.inj hr'
    cases hr : s.picture.rect? id with
    | some r =>
      rw [hr, Option.getD_some] at hrect
      rw [← hrect]
      exact hs id r hr
    | none =>
      rw [hr, Option.getD_none] at hrect
      rw [← hrect, placedExtent]
      cases s.store.node? id with
      | some r => rfl
      | none => exact nodeRect_extent _ _
  · cases hr'

/-- Moving a node changes its corner and not its size. -/
theorem SizesKept.moveNode (hs : s.SizesKept) (hcomplete : s.picture.Complete) (id : String) (corner : Point α) :
    (s.moveNode id corner).state.SizesKept := by
  refine hs.congr (fun other => by rw [(moveNode_quiet hcomplete id corner).store]) fun other r' hr' => ?_
  rw [moveNode_rect?] at hr'
  split at hr'
  · rename_i heq
    obtain ⟨r, hr, rfl⟩ := Option.map_eq_some_iff.mp hr'
    exact ⟨r, heq ▸ hr, rfl⟩
  · exact ⟨r', hr', rfl⟩

theorem SizesKept.setAnchor (hs : s.SizesKept) (hlinked : s.picture.Linked) (key : String) (which : EdgeEnd)
    (p : Point α) : (s.setAnchor key which p).state.SizesKept := by
  refine hs.congr (setAnchor_reshapes hlinked key which p).node? fun other r' hr' => ?_
  rw [setAnchor_rect?] at hr'
  exact ⟨r', hr', rfl⟩

/-- A node may get another size, if it is recorded as it then is while no other
    node and no other record changes. The new size has to be positive, as it
    would not be read back otherwise. -/
theorem SizesKept.record {t : ChartStage α} (hs : s.SizesKept) (id : String)
    (hnode : ∀ other, id ≠ other → t.store.node? other = s.store.node? other)
    (hrect : ∀ other, id ≠ other → t.picture.rect? other = s.picture.rect? other)
    (hrecorded : ∀ r, t.picture.rect? id = some r → r.Sized ∧ t.store.node? id = some r) : t.SizesKept := by
  intro other r hr
  by_cases heq : id = other
  · subst heq
    obtain ⟨hsized, hrecord⟩ := hrecorded r hr
    exact (placedExtent_recorded hsized hrecord).symm
  · rw [placedExtent_congr (hnode other heq)]
    exact hs other r (hrect other heq ▸ hr)

/-- Resizing a node records it as it then is. The surface has to take it, since
    a refusal stops the resizing before it is recorded. -/
theorem SizesKept.resizeNode (hexact : Scalar.Exact α) (hs : s.SizesKept) (hcomplete : s.picture.Complete)
    (haccepts : s.surface.Accepts) (id : String) (h : Handle) (step : Point α) :
    (s.resizeNode id h step).state.SizesKept := by
  refine hs.record id (fun other hne => ?_) (fun other hne => ?_) fun r' hr' => ?_
  · rw [resizeNode_node? hcomplete haccepts, if_neg hne]
  · rw [resizeNode_rect?, if_neg hne]
  · have hnode := resizeNode_node? hcomplete haccepts id id h step
    rw [if_pos rfl, hr', Option.some_or] at hnode
    rw [resizeNode_rect?, if_pos rfl] at hr'
    obtain ⟨r, hr, rfl⟩ := Option.map_eq_some_iff.mp hr'
    exact ⟨(hs.sized hexact hr).resize hexact h step, hnode⟩

/-- A node that was normalized has a width and a height, because it has at least
    the smallest size. -/
theorem normalized_sized (hexact : Scalar.Exact α) (r : Rect α) (text : Extent α) :
    (Layout.normalized r text).Sized := by
  have hgreater : ∀ {a b : α}, 0 < a → 0 < Scalar.greater a b := by
    intro a b ha
    unfold Scalar.greater
    split
    · exact hexact.lt_trans ha ‹_›
    · exact ha
  exact ⟨hgreater (hexact.ofNat_pos 79), hgreater (hexact.ofNat_pos 47)⟩

/-- A node that is normalized is recorded as it then is. No other node and no
    other record changes. -/
theorem normalizeNode_spec (haccepts : s.surface.Accepts) (id : String) :
    (s.normalizeNode id).state.surface.Accepts ∧
    (∀ other, id ≠ other → (s.normalizeNode id).state.store.node? other = s.store.node? other) ∧
    (∀ other, id ≠ other → (s.normalizeNode id).state.picture.rect? other = s.picture.rect? other) ∧
    ∀ r', (s.normalizeNode id).state.picture.rect? id = some r' →
      (∃ r text, r' = Layout.normalized r text) ∧ (s.normalizeNode id).state.store.node? id = some r' := by
  cases hn : s.picture.nodes[id]? with
  | none =>
    have hnone : s.picture.rect? id = none := by rw [Chart.rect?, hn, Option.map_none]
    rw [normalizeNode_of_getElem?_eq_none hn, Outcome.done_state, hnone]
    exact ⟨haccepts, fun _ _ => rfl, fun _ _ => rfl, fun r' hr' => by cases hr'⟩
  | some n =>
    let n' := n.fitted s.measure
    let t : ChartStage α := (Stage.draw { s with picture := s.picture.setNode id n' } (n'.marks id)).state
    have hcommits := Stage.Commits.commit t id n'.rect
    have hrect : ∀ other, (t.commit id n'.rect).picture.rect? other =
        if id = other then some n'.rect else s.picture.rect? other :=
      fun other => s.picture.setNode_rect? id other n'
    rw [normalizeNode_eq haccepts hn]
    refine ⟨?_, fun other hne => ?_, fun other hne => ?_, fun r' hr' => ?_⟩
    · exact (s.surface.draw_refused (n'.marks id)).trans haccepts
    · rw [hcommits.node?, if_neg hne]
      rfl
    · rw [hrect, if_neg hne]
    · rw [hrect, if_pos rfl] at hr'
      obtain rfl := Option.some.inj hr'
      rw [hcommits.node?, if_pos rfl]
      exact ⟨⟨_, _, rfl⟩, rfl⟩

/-- Normalizing the layout keeps the sizes. The induction is on the nodes that
    are still to be normalized. The edges that are routed at the end touch
    neither nodes nor their records. -/
theorem SizesKept.normalizeLayout (hexact : Scalar.Exact α) (hs : s.SizesKept) (hcomplete : s.picture.Complete)
    (hrecorded : s.Recorded) (haccepts : s.surface.Accepts) : s.normalizeLayout.SizesKept := by
  obtain ⟨hcomplete', -, -, hs'⟩ := List.foldlRecOn
    (motive := fun t : ChartStage α => t.picture.Complete ∧ t.Recorded ∧ t.surface.Accepts ∧ t.SizesKept)
    s.picture.nodes.keys (fun t id => (t.normalizeNode id).state) ⟨hcomplete, hrecorded, haccepts, hs⟩
    fun t ht id _ => by
      obtain ⟨hcomplete', hrecorded', haccepts', hsizes⟩ := ht
      obtain ⟨hcomplete'', hrecorded''⟩ := hrecorded'.normalizeNode hcomplete' id
      obtain ⟨haccepts'', hnode, hrect, hid⟩ := normalizeNode_spec haccepts' id
      refine ⟨hcomplete'', hrecorded'', haccepts'', hsizes.record id hnode hrect fun r' hr' => ?_⟩
      obtain ⟨⟨r, text, rfl⟩, hrecord⟩ := hid r' hr'
      exact ⟨normalized_sized hexact r text, hrecord⟩
  rw [ChartStage.normalizeLayout]
  refine hs'.congr (fun id => by rw [(updateEdges_quiet hcomplete' _).store]) fun id r' hr' => ⟨r', ?_, rfl⟩
  have hnodes : ∀ (keys : List String) (t : ChartStage α),
      (t.updateEdges keys).picture.nodes = t.picture.nodes := by
    intro keys t
    rw [updateEdges_picture, Chart.foldl_rerouted_nodes]
  rw [← Chart.rect?_of_nodes_eq (hnodes _ _)]
  exact hr'

end Sizes

end ChartStage

/-- The edit moves, resizes or normalizes nodes, or drags the end of an edge. -/
def ChartEdit.Lays : ChartEdit α → Prop
  | .moveNode _ _ | .resizeNode _ _ _ | .setAnchor _ _ _ | .normalizeLayout => True
  | _ => False

/-- The edit changes the size of the node with that id. -/
def ChartEdit.Sizes (id : String) : ChartEdit α → Prop
  | .resizeNode other _ _ => id = other
  | .normalizeLayout => True
  | _ => False

namespace ChartStage

/-- A chart that is laid out, on a surface that refuses nothing: its routes are
    up to date, and the shapes of its edges and the sizes of its nodes are as
    they would be if they came onto the chart now. Every edit that lays out the
    chart keeps it so, and so does every render. -/
structure Laid (s : ChartStage α) : Prop where
  accepts : s.surface.Accepts
  linked : s.picture.Linked
  complete : s.picture.Complete
  routed : s.picture.Routed
  recorded : s.Recorded
  sizesKept : s.SizesKept

namespace Laid

variable {s : ChartStage α}

/-- A chart stays laid out when a flowchart is rendered. It need not be the
    flowchart that is shown. -/
theorem render (hs : s.Laid) (d : Flowchart) : (s.render d).Laid := by
  have hsteps := s.render_steps (P := fun _ => True) (d := d) fun _ _ => trivial
  obtain ⟨hlinked, hcomplete⟩ := hsteps.linked_complete ⟨hs.linked.congr rfl rfl, hs.complete⟩
  exact
    { accepts := (s.render_sameSetup d).accepts hs.accepts
      linked := hlinked
      complete := hcomplete
      routed := s.render_routed d
      recorded := hs.recorded.render d hs.complete
      sizesKept := hs.sizesKept.render hs.complete d }

/-- A chart stays laid out when a node is moved or resized, an end of an edge is
    dragged or the layout is normalized. -/
theorem edit (hexact : Scalar.Exact α) (hs : s.Laid) {e : ChartEdit α} (he : e.Lays) : (s.edit e).state.Laid := by
  have hsteps := s.edit_steps (P := fun _ => True) e
  obtain ⟨hlinked, hcomplete⟩ := hsteps.linked_complete ⟨hs.linked, hs.complete⟩
  refine
    { accepts := hsteps.sameSetup.accepts hs.accepts
      linked := hlinked
      complete := hcomplete
      routed := edit_routed hs.accepts hs.linked hs.routed e
      recorded := hs.recorded.edit hs.linked hs.complete e
      sizesKept := ?_ }
  cases e with
  | moveNode id corner => exact hs.sizesKept.moveNode hs.complete id corner
  | resizeNode id h step => exact hs.sizesKept.resizeNode hexact hs.complete hs.accepts id h step
  | setAnchor key which p => exact hs.sizesKept.setAnchor hs.linked key which p
  | normalizeLayout => exact hs.sizesKept.normalizeLayout hexact hs.complete hs.recorded hs.accepts
  | _ => exact he.elim

/-- An edit leaves the offset of an end that it does not drag. An end of an edge
    that is not on the chart is not dragged either. -/
theorem edit_offset? (hs : s.Laid) {e : ChartEdit α} (he : e.Lays) {key : String} {which : EdgeEnd}
    (hnot : ∀ p, e = .setAnchor key which p → s.picture.nodeAt? key which = none) :
    (s.edit e).state.offset? key which = s.offset? key which := by
  cases e with
  | moveNode id corner =>
      exact offset?_congr (by rw [ChartStage.edit, (moveNode_quiet hs.complete id corner).store]) which
  | resizeNode id h step => exact offset?_congr (resizeNode_edge? hs.complete id h step key) which
  | setAnchor other end' p =>
    rw [ChartStage.edit, setAnchor_offset? hs.linked hs.recorded]
    split
    · rename_i heq
      obtain ⟨rfl, rfl⟩ := heq
      rw [hnot p rfl]
    · rfl
  | normalizeLayout => exact offset?_congr (normalizeLayout_edge? hs.complete hs.recorded key) which
  | _ => exact he.elim

/-- An edit leaves the size of a node that it does not resize. -/
theorem edit_placedExtent (hs : s.Laid) {e : ChartEdit α} (he : e.Lays) {id : String} (hnot : ¬ e.Sizes id) :
    (s.edit e).state.placedExtent id = s.placedExtent id := by
  refine placedExtent_congr ?_
  cases e with
  | moveNode other corner => rw [ChartStage.edit, (moveNode_quiet hs.complete other corner).store]
  | resizeNode other h step =>
    rw [ChartStage.edit, resizeNode_node? hs.complete hs.accepts, if_neg fun heq => hnot heq.symm]
  | setAnchor key which p => exact (setAnchor_reshapes hs.linked key which p).node? id
  | normalizeLayout => exact (hnot trivial).elim
  | _ => exact he.elim

/-- An edit leaves the edges on the chart: edges come and go with renders
    only. -/
theorem edit_edges (s : ChartStage α) {e : ChartEdit α} (he : e.Lays) (key : String) :
    ((s.edit e).state.picture.edges[key]?).isSome = (s.picture.edges[key]?).isSome := by
  have hmarks : SameMarks s (s.edit e).state := by
    cases e with
    | moveNode id corner => exact s.moveNode_sameMarks id corner
    | resizeNode id h step => exact s.resizeNode_sameMarks id h step
    | setAnchor key which p => exact s.setAnchor_sameMarks key which p
    | normalizeLayout => exact s.normalizeLayout_sameMarks
    | _ => exact he.elim
  have hmarked := congrArg Option.isSome (hmarks.marked? key)
  rwa [Chart.marked?, Chart.marked?, Option.isSome_map, Option.isSome_map] at hmarked

/-- A dragged end of an edge is at its offset from the center of its node, where
    that node now is. The route is up to date and its shape is the recorded one,
    so the offset may be read off the store. -/
theorem endPoint_eq (hs : s.Laid) {key : String} {e : EdgeItem α} (he : s.picture.edges[key]? = some e)
    {which : EdgeEnd} {offset : Point α} (hoffset : s.offset? key which = some offset) :
    ∃ r, s.picture.nodeAt? key which = some (e.edge.nodeAt which, r) ∧
      e.route.endPoint which = r.center + offset := by
  obtain ⟨source, target, hends, hroute⟩ := hs.routed.route_eq hs.linked he
  refine ⟨which.pick (source, target), nodeAt?_of_ends? he hends which, ?_⟩
  rw [offset?, (hs.recorded key _ (shape?_of_getElem? he)).2] at hoffset
  rw [hroute]
  exact EdgeShape.endPoint_route (source, target) hoffset

end Laid

end ChartStage

end LiveDiagram
