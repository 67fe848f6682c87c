import LiveDiagram.Chart.Edit
import LiveDiagram.Proofs.Chart.Render
import LiveDiagram.Proofs.Chart.Step

namespace LiveDiagram

/-- An edit of a chart: what is done to it apart from renders, by a pointer or
    by a command. -/
inductive ChartEdit (α : Type) where
  | moveNode (id : String) (corner : Point α)
  | resizeNode (id : String) (h : Handle) (step : Point α)
  | commitNode (id : String)
  | setSelected (id : String) (selected : Bool)
  | clearSelection
  | selectEdge (key : String)
  | deselectEdge
  | toggleEdge (key : String)
  | setAnchor (key : String) (which : EdgeEnd) (p : Point α)
  | setControl (key : String) (index : Int) (p : Point α)
  | toggleCurve (key : String)
  | notifyDependents (id : String)
  | normalizeLayout
  deriving Repr

variable {α : Type} [Scalar α]

namespace ChartStage

/-- Makes an edit. -/
def edit (s : ChartStage α) : ChartEdit α → Outcome (ChartStage α)
  | .moveNode id corner => s.moveNode id corner
  | .resizeNode id h step => s.resizeNode id h step
  | .commitNode id => .done (s.commitNode id)
  | .setSelected id selected => s.setSelected id selected
  | .clearSelection => s.clearSelection
  | .selectEdge key => s.selectEdge key
  | .deselectEdge => s.deselectEdge
  | .toggleEdge key => s.toggleEdge key
  | .setAnchor key which p => s.setAnchor key which p
  | .setControl key index p => s.setControl key index p
  | .toggleCurve key => s.toggleCurve key
  | .notifyDependents id => .done (s.notifyDependents id)
  | .normalizeLayout => .done s.normalizeLayout

section Steps

variable {P : String → Prop}

theorem steps_foldl {ι : Type} {f : ChartStage α → ι → ChartStage α}
    (hf : ∀ s item, Steps P s (f s item)) (items : List ι) (s : ChartStage α) :
    Steps P s (items.foldl f s) := by
  induction items generalizing s with
  | nil => exact .refl
  | cons item items ih => exact (hf s item).trans (ih (f s item))

/-- Elementary changes that are made one after the other, where the surface may
    stop the first ones. -/
theorem steps_andThen {s : ChartStage α} {o : Outcome (ChartStage α)}
    {f : ChartStage α → Outcome (ChartStage α)} (ho : Steps P s o.state)
    (hf : ∀ t, Steps P t (f t).state) : Steps P s (o.andThen f).state :=
  Outcome.andThen_state ho fun t ht => ht.trans (hf t)

variable (s : ChartStage α)

/-- Routing an edge is one elementary change, or none if the edge lacks a
    node. -/
theorem updateEdge_steps (key : String) : Steps P s (s.updateEdge key).state := by
  rcases updateEdge_cases s key with ⟨heq, -⟩ | ⟨e, ends, he, -, -, heq⟩
  · rw [heq]
    exact .refl
  · let t : ChartStage α := { s with store := s.store.routed e ends, edits := s.edits }
    have hrecord : Step P s t := .record s _ _
    have hedge : Step P t
        (Stage.draw { t with picture := t.picture.setEdge key (e.routed ends) }
          ((e.routed ends).marks t.measure key)).state :=
      .edge (s := t) he rfl fun _ => EdgeShape.lacksControls_completed ..
    rw [heq]
    exact (Relation.ReflTransGen.single hrecord).tail hedge

theorem updateEdges_steps (keys : List String) : Steps P s (s.updateEdges keys) :=
  steps_foldl updateEdge_steps keys s

theorem notifyDependents_steps (id : String) : Steps P s (s.notifyDependents id) := by
  unfold notifyDependents
  split
  · exact updateEdges_steps s _
  · exact .refl

/-- A change to a node that touches neither its edges nor, by itself, its style,
    is elementary. -/
theorem modifyNode_steps (id : String) {f : NodeItem α → NodeItem α}
    (hkeys : ∀ n, (f n).edgeKeys = n.edgeKeys)
    (hstyle : ∀ n, (f n).style = s.styleFor (f n).className ∨
      (f n).style = n.style ∧ (f n).className = n.className) :
    Steps P s (s.modifyNode id f).state := by
  unfold modifyNode
  cases hn : s.picture.nodes[id]? with
  | none => exact .refl
  | some n =>
    dsimp only
    rw [set_drawNode]
    exact .single (.node hn (hkeys n) (hstyle n))

theorem commitNode_steps (id : String) : Steps P s (s.commitNode id) := by
  unfold commitNode
  split
  · exact .single (.record s _ _)
  · exact .refl

/-- A node is moved by elementary changes: it changes its place, and its edges
    are routed one by one. -/
theorem moveNode_steps (id : String) (corner : Point α) :
    Steps P s (s.moveNode id corner).state :=
  steps_andThen (s.modifyNode_steps id (fun _ => rfl) fun _ => .inr ⟨rfl, rfl⟩)
    fun t => t.notifyDependents_steps id

theorem resizeNode_steps (id : String) (h : Handle) (step : Point α) :
    Steps P s (s.resizeNode id h step).state :=
  steps_andThen (s.modifyNode_steps id (fun _ => rfl) fun _ => .inr ⟨rfl, rfl⟩)
    fun t => (t.notifyDependents_steps id).trans (commitNode_steps _ id)

theorem setSelected_steps (id : String) (selected : Bool) :
    Steps P s (s.setSelected id selected).state := by
  unfold setSelected
  split
  · split
    · exact .refl
    · exact s.modifyNode_steps id (fun _ => rfl) fun _ => .inr ⟨rfl, rfl⟩
  · exact .refl

theorem clearSelection_steps : Steps P s s.clearSelection.state :=
  Outcome.forEach_state (P := Steps P s) (fun id _ t ht => ht.trans (t.setSelected_steps id false))
    .refl

theorem markEdge_steps (key : String) (selected : Bool) :
    Steps P s (s.markEdge key selected).state := by
  unfold markEdge
  cases he : s.picture.edges[key]? with
  | none => exact .refl
  | some e =>
    dsimp only
    rw [set_drawEdge]
    exact .single (.edge he rfl fun hcomplete => hcomplete)

theorem deselectEdge_steps : Steps P s s.deselectEdge.state := by
  unfold deselectEdge
  split
  · exact .refl
  · exact steps_andThen (markEdge_steps s _ false) fun t => .single (.select t none)

theorem selectEdge_steps (key : String) : Steps P s (s.selectEdge key).state := by
  unfold selectEdge
  split
  · exact .refl
  · refine steps_andThen (deselectEdge_steps s) fun t => ?_
    split
    · exact .head (.select t (some key)) (markEdge_steps _ key true)
    · exact .refl

theorem toggleEdge_steps (key : String) : Steps P s (s.toggleEdge key).state := by
  unfold toggleEdge
  split
  · exact deselectEdge_steps s
  · exact selectEdge_steps s key

/-- An edge that gets another shape is put with that shape, completed and
    routed, and drawn. Completing it comes last, so that its shape may be
    recorded twice; only the last record counts. -/
theorem reshaped_eq {s : ChartStage α} {key : String} {e : EdgeItem α} {ends : Rect α × Rect α}
    (hends : s.picture.ends? e.edge = some ends) (shape : EdgeShape α) :
    ((s.set (s.picture.setEdge key { e with shape })).persistEdge e.edge shape).updateEdge key =
      Stage.draw
        { s with
          picture := s.picture.setEdge key (EdgeItem.routed { e with shape } ends)
          store := (s.store.updateEdge e.edge.key shape.toUpdate).routed { e with shape } ends }
        ((EdgeItem.routed { e with shape } ends).marks s.measure key) := by
  have he : ((s.set (s.picture.setEdge key { e with shape })).persistEdge e.edge
      shape).picture.edges[key]? = some { e with shape } := by
    simp [set, persistEdge]
  have hends' : ((s.set (s.picture.setEdge key { e with shape })).persistEdge e.edge
      shape).picture.ends? ({ e with shape } : EdgeItem α).edge = some ends := hends
  rw [updateEdge_eq he hends']
  dsimp only [set, persistEdge]
  rw [Chart.setEdge_setEdge]

/-- Giving an edge another shape is elementary, whatever was recorded of it
    before it is drawn. -/
private theorem reshaped_steps {s t : ChartStage α} {key : String} {e : EdgeItem α}
    {ends : Rect α × Rect α} (he : s.picture.edges[key]? = some e)
    (hends : s.picture.ends? e.edge = some ends) (shape : EdgeShape α)
    (hrecorded : ∃ store, t = { s with store, edits := s.edits }) :
    Steps P s
      (((t.set (t.picture.setEdge key { e with shape })).persistEdge e.edge shape).updateEdge
        key).state := by
  obtain ⟨store, rfl⟩ := hrecorded
  rw [reshaped_eq (s := { s with store, edits := s.edits }) hends]
  let e' : EdgeItem α := EdgeItem.routed { e with shape } ends
  let t : ChartStage α :=
    { s with
      store := (store.updateEdge e.edge.key shape.toUpdate).routed { e with shape } ends
      edits := s.edits }
  have hrecord : Step P s t := .record s _ _
  have hedge : Step P t
      (Stage.draw { t with picture := t.picture.setEdge key e' } (e'.marks t.measure key)).state :=
    .edge (s := t) he rfl fun _ => EdgeShape.lacksControls_completed ..
  exact (Relation.ReflTransGen.single hrecord).tail hedge

theorem reshapeEdge_steps (key : String) (f : EdgeShape α → Rect α → Rect α → EdgeShape α) :
    Steps P s (s.reshapeEdge key f).state := by
  unfold reshapeEdge
  cases he : s.picture.edges[key]? with
  | none => exact .refl
  | some e =>
    dsimp only
    cases hends : s.picture.ends? e.edge with
    | none => exact .refl
    | some ends => exact reshaped_steps he hends _ ⟨s.store, rfl⟩

theorem setAnchor_steps (key : String) (which : EdgeEnd) (p : Point α) :
    Steps P s (s.setAnchor key which p).state := by
  unfold setAnchor
  exact reshapeEdge_steps s key _

theorem setControl_steps (key : String) (index : Int) (p : Point α) :
    Steps P s (s.setControl key index p).state := by
  unfold setControl
  exact reshapeEdge_steps s key _

theorem toggleCurve_steps (key : String) : Steps P s (s.toggleCurve key).state := by
  unfold toggleCurve
  cases he : s.picture.edges[key]? with
  | none => exact .refl
  | some e =>
    dsimp only
    cases hends : s.picture.ends? e.edge with
    | none => exact .refl
    | some ends =>
      dsimp only
      refine reshaped_steps he hends _ ?_
      unfold completeShape
      split
      · exact ⟨_, rfl⟩
      · exact ⟨s.store, rfl⟩

theorem normalizeLayout_steps : Steps P s s.normalizeLayout := by
  refine (steps_foldl (fun t id => ?_) _ s).trans (updateEdges_steps _ _)
  exact steps_andThen (t.modifyNode_steps id (fun _ => rfl) fun _ => .inr ⟨rfl, rfl⟩)
    fun u => u.commitNode_steps id

theorem restyle_steps : Steps P s s.restyle := by
  unfold restyle
  refine steps_foldl (fun t id => ?_) _ s
  exact t.modifyNode_steps id (fun _ => rfl) fun _ => .inl rfl

/-- Every edit is made of elementary changes, also one that the surface stops.
    So whatever the elementary changes keep is kept by every edit. -/
theorem edit_steps (e : ChartEdit α) : Steps P s (s.edit e).state := by
  cases e with
  | moveNode id corner => exact s.moveNode_steps id corner
  | resizeNode id h step => exact s.resizeNode_steps id h step
  | commitNode id => exact s.commitNode_steps id
  | setSelected id selected => exact s.setSelected_steps id selected
  | clearSelection => exact s.clearSelection_steps
  | selectEdge key => exact s.selectEdge_steps key
  | deselectEdge => exact s.deselectEdge_steps
  | toggleEdge key => exact s.toggleEdge_steps key
  | setAnchor key which p => exact s.setAnchor_steps key which p
  | setControl key index p => exact s.setControl_steps key index p
  | toggleCurve key => exact s.toggleCurve_steps key
  | notifyDependents id => exact s.notifyDependents_steps id
  | normalizeLayout => exact s.normalizeLayout_steps

/-- Placing a node is made of elementary changes, if its id is among those that
    are allowed. -/
theorem placeNode_steps {spec : Node} (hname : P spec.id) (index : Nat) :
    Steps P s (s.placeNode spec index).state := by
  rw [placeNode_eq]
  let t : ChartStage α :=
    { s with
      store := if spec.id ∈ s.picture.nodes then s.store else s.store.load
      edits := s.edits }
  have hrecord : Step P s t := .record s _ _
  have hput : Step P t
      (Stage.draw
        { t with
          picture := t.picture.setNode spec.id (s.placedAs s.picture.nodes[spec.id]? index spec) }
        ((s.placedAs s.picture.nodes[spec.id]? index spec).marks spec.id)).state := by
    cases hn : s.picture.nodes[spec.id]? with
    | some n => exact .node (s := t) hn rfl (.inl rfl)
    | none => exact .addNode (s := t) hn hname rfl rfl
  exact (Relation.ReflTransGen.single hrecord).tail hput

/-- An edge that is placed is put on the chart, linked to its nodes and
    drawn. -/
theorem placeEdge_steps (spec : Edge) : Steps P s (s.placeEdge spec) := by
  rcases placeEdge_cases s spec with ⟨heq, -⟩ | ⟨ends, hnot, hends, heq⟩
  · rw [heq]
  · have hrecord : Step P s { s with store := s.storeWithEdge spec ends, edits := s.edits } :=
      .record s _ _
    have hsome : (s.picture.ends? spec).isSome := by rw [hends]; rfl
    have hadd := Step.addEdge (P := P)
      (s := { s with store := s.storeWithEdge spec ends, edits := s.edits }) (e := s.newEdge spec ends)
      (Std.ExtTreeMap.getElem?_eq_none hnot) hsome (EdgeShape.lacksControls_completed ..)
    rw [heq]
    exact (Relation.ReflTransGen.single hrecord).tail hadd

/-- A render is made of elementary changes, once the classes and the direction
    of the flowchart are taken over. The induction is on the nodes that are
    still to be placed, all of them with allowed ids. The nodes that are taken
    off need no such premise. -/
theorem render_steps {d : Flowchart} (hnames : ∀ id ∈ d.nodeIds, P id) :
    Steps P (s.set { s.picture with classes := d.classes, direction := d.direction })
      (s.render d) := by
  have hpruned : Steps P (s.set { s.picture with classes := d.classes, direction := d.direction })
      (s.pruned d) :=
    steps_foldl (fun t id => .single (.removeNode t id)) _ _
  have hpopulated : Steps P (s.pruned d) (s.populated d) := by
    have hplaced : ∀ (specs : List (Node × Nat)) (t : ChartStage α), (∀ p ∈ specs, P p.1.id) →
        Steps P t (specs.foldl (fun t p => (t.placeNode p.1 p.2).state) t) := by
      intro specs
      induction specs with
      | nil => exact fun t _ => .refl
      | cons p specs ih =>
        intro t hgood
        have hfirst := t.placeNode_steps (hgood p List.mem_cons_self) p.2
        exact hfirst.trans (ih _ fun q hq => hgood q (List.mem_cons_of_mem _ hq))
    refine hplaced _ _ ?_
    intro p hp
    exact hnames _ (List.mem_map_of_mem (List.fst_mem_of_mem_zipIdx hp))
  have hconnected : Steps P (s.populated d) (s.connected d) := steps_foldl placeEdge_steps _ _
  have htrimmed : Steps P (s.connected d) (s.trimmed d) :=
    steps_foldl (fun t key => .single (.removeEdge t key)) _ _
  have hrouted : Steps P (s.trimmed d) (s.render d) := updateEdges_steps _ _
  exact hpruned.trans (hpopulated.trans (hconnected.trans (htrimmed.trans hrouted)))

end Steps

end ChartStage

end LiveDiagram
