import LiveDiagram.Proofs.Chart.Anchors
import LiveDiagram.Proofs.Plane.Border
import LiveDiagram.Proofs.Pointer.Recorded

namespace LiveDiagram

variable {α : Type} [Scalar α]

/-- The call shows a flowchart, moves, resizes or normalizes its nodes, or drags
    the end of an edge. -/
def Call.Lays : Call α → Prop
  | .render (.flowchart _) => True
  | .editChart e => e.Lays
  | _ => False

/-- The call changes the size of the node with that id. -/
def Call.Sizes (id : String) : Call α → Prop
  | .editChart e => e.Sizes id
  | _ => False

/-- The call that drags an end of an edge towards a point. -/
def Call.drag (key : String) (which : EdgeEnd) (p : Point α) : Call α :=
  .editChart (.setAnchor key which p)

namespace Session

/-- The node at which an end of the edge with that key is on the chart that is
    shown, with its rectangle. -/
def nodeAt? (s : Session α) (key : String) (which : EdgeEnd) : Option (String × Rect α) :=
  s.picture.chartOrEmpty.nodeAt? key which

/-- One of the calls drags the end of the edge with that key while the edge is
    on the chart. -/
def Drags (s : Session α) (calls : List (Call α)) (key : String) (which : EdgeEnd) : Prop :=
  ∃ before p after, calls = before ++ .drag key which p :: after ∧ ((s.run before).nodeAt? key which).isSome

/-- Some calls, and then one that drags the end of the edge with that key
    towards a point. It finds the end at the node with that id and that
    rectangle, and is the last one that drags this end: none of the calls after
    it does. -/
structure DragsLast (s : Session α) (before : List (Call α)) (key : String) (which : EdgeEnd) (p : Point α)
    (after : List (Call α)) (id : String) (r : Rect α) : Prop where
  nodeAt? : (s.run before).nodeAt? key which = some (id, r)
  last : ¬ ((s.run before).call (.drag key which p)).Drags after key which

/-- What a later call drags, the calls from the first one on drag. -/
theorem Drags.cons {s : Session α} {c : Call α} {calls : List (Call α)} {key : String} {which : EdgeEnd}
    (h : (s.call c).Drags calls key which) : s.Drags (c :: calls) key which := by
  obtain ⟨before, p, after, rfl, hnode⟩ := h
  exact ⟨c :: before, p, after, rfl, hnode⟩

/-- If some call drags an end, one of them is the last. -/
theorem Drags.exists_last {s : Session α} {calls : List (Call α)} {key : String} {which : EdgeEnd}
    (h : s.Drags calls key which) :
    ∃ before p after id r, calls = before ++ .drag key which p :: after ∧
      s.DragsLast before key which p after id r := by
  induction calls generalizing s with
  | nil =>
    obtain ⟨before, p, after, heq, -⟩ := h
    simp at heq
  | cons c calls ih =>
    by_cases hlater : (s.call c).Drags calls key which
    · obtain ⟨before, p, after, id, r, rfl, hlast⟩ := ih hlater
      exact ⟨c :: before, p, after, id, r, rfl, hlast.nodeAt?, hlast.last⟩
    · obtain ⟨before, p, after, heq, hnode⟩ := h
      cases before with
      | nil =>
        obtain ⟨rfl, rfl⟩ := List.cons.inj heq
        obtain ⟨⟨id, r⟩, hr⟩ := Option.isSome_iff_exists.mp hnode
        exact ⟨[], p, calls, id, r, rfl, hr, hlater⟩
      | cons other before =>
        obtain ⟨rfl, rfl⟩ := List.cons.inj heq
        exact absurd ⟨before, p, after, rfl, hnode⟩ hlater

/-- The session shows a chart that is laid out. -/
structure Laid (s : Session α) : Prop where
  chart : ∃ c, s.picture = .chart c
  stage : s.chartStage.Laid

namespace Laid

variable {s : Session α} {c : Call α}

/-- At the start the chart is empty, and so it is laid out. -/
theorem start (measure : Measure α) (store : Store α) : (Session.start measure store).Laid where
  chart := ⟨_, rfl⟩
  stage :=
    { accepts := rfl
      linked := Chart.linked_complete_empty.1
      complete := Chart.linked_complete_empty.2
      routed := fun key e he => by simp [Session.chartStage, Session.start, Stage.withPicture, Chart.empty] at he
      recorded := ChartStage.recorded_of_empty rfl
      sizesKept := fun id r hr => by
        simp [Session.chartStage, Session.start, Stage.withPicture, Chart.empty, Chart.rect?] at hr }

/-- What such a call does to the session it does to the chart. -/
theorem call_cases (hs : s.Laid) (hc : c.Lays) :
    (∃ d, c = .render (.flowchart d) ∧ (s.call c).chartStage = s.chartStage.render d) ∨
    ∃ e : ChartEdit α, c = .editChart e ∧ e.Lays ∧ (s.call c).chartStage = (s.chartStage.edit e).state := by
  cases c with
  | render d =>
    cases d with
    | flowchart d => exact .inl ⟨d, rfl, rfl⟩
    | sequence d => exact hc.elim
  | editChart e => exact .inr ⟨e, rfl, hc, (Session.chartStage_onChart hs.chart _).1⟩
  | _ => exact hc.elim

theorem edges_editChart (hs : s.Laid) {e : ChartEdit α} (he : e.Lays) (key : String) :
    ((s.call (.editChart e)).picture.chartOrEmpty.edges[key]?).isSome =
      (s.picture.chartOrEmpty.edges[key]?).isSome := by
  have hstage : (s.call (.editChart e)).chartStage = (s.chartStage.edit e).state :=
    (Session.chartStage_onChart hs.chart _).1
  rw [← Session.chartStage_picture, ← Session.chartStage_picture, hstage]
  exact ChartStage.Laid.edit_edges s.chartStage he key

/-- Such a call keeps the chart laid out. -/
theorem call (hexact : Scalar.Exact α) (hs : s.Laid) (hc : c.Lays) : (s.call c).Laid := by
  refine ⟨?_, ?_⟩
  · obtain ⟨chart, hchart⟩ := hs.chart
    cases c with
    | render d =>
      cases d with
      | flowchart d => exact ⟨_, rfl⟩
      | sequence d => exact hc.elim
    | editChart e =>
      rw [Session.call, onChart_of_chart hchart]
      exact ⟨_, rfl⟩
    | _ => exact hc.elim
  · rcases hs.call_cases hc with ⟨d, -, hstage⟩ | ⟨e, -, he, hstage⟩
    · rw [hstage]
      exact hs.stage.render d
    · rw [hstage]
      exact hs.stage.edit hexact he

omit [Scalar α] in
theorem nodeAt?_eq (s : Session α) (key : String) (which : EdgeEnd) :
    s.chartStage.picture.nodeAt? key which = s.nodeAt? key which := by
  rw [Session.chartStage_picture, Session.nodeAt?]

/-- A call leaves the offset of an end that it does not drag. A render may take
    the edge off the chart and bring it back later, and the offset is still
    recorded then. -/
theorem call_offset? (hs : s.Laid) (hc : c.Lays) {key : String} {which : EdgeEnd}
    (hnot : ∀ p, c = .drag key which p → s.nodeAt? key which = none) :
    (s.call c).chartStage.offset? key which = s.chartStage.offset? key which := by
  rcases hs.call_cases hc with ⟨d, -, hstage⟩ | ⟨e, rfl, he, hstage⟩
  · rw [hstage]
    exact ChartStage.render_offset? hs.stage.complete d key which
  · rw [hstage]
    refine hs.stage.edit_offset? he fun p hdrag => ?_
    rw [nodeAt?_eq]
    exact hnot p (congrArg Call.editChart hdrag)

/-- An end that is dragged is kept as the offset of the point of the border. -/
theorem drag_offset? (hs : s.Laid) {key : String} {which : EdgeEnd} {p : Point α} {id : String} {r : Rect α}
    (hnode : s.nodeAt? key which = some (id, r)) :
    (s.call (.drag key which p)).chartStage.offset? key which = some (r.borderPoint p - r.center) := by
  have hstage : (s.call (.drag key which p)).chartStage = (s.chartStage.setAnchor key which p).state :=
    (Session.chartStage_onChart hs.chart _).1
  rw [hstage, ChartStage.setAnchor_offset? hs.stage.linked hs.stage.recorded, if_pos ⟨rfl, rfl⟩,
    nodeAt?_eq, hnode]

/-- A call leaves the size of a node that it does not resize, also if the node
    leaves the chart. -/
theorem call_placedExtent (hs : s.Laid) (hc : c.Lays) {id : String} (hnot : ¬ c.Sizes id) :
    (s.call c).chartStage.placedExtent id = s.chartStage.placedExtent id := by
  rcases hs.call_cases hc with ⟨d, -, hstage⟩ | ⟨e, rfl, he, hstage⟩
  · rw [hstage]
    exact ChartStage.placedExtent_congr ((ChartStage.render_completesRecords d hs.stage.complete).store.node? id)
  · rw [hstage]
    exact hs.stage.edit_placedExtent he hnot

theorem run (hexact : Scalar.Exact α) (hs : s.Laid) {calls : List (Call α)} (hcalls : ∀ c ∈ calls, c.Lays) :
    (s.run calls).Laid :=
  run_induction (fun c hc _ ht => ht.call hexact (hcalls c hc)) hs

/-- Calls of which none drags an end leave its offset. -/
theorem run_offset? (hexact : Scalar.Exact α) (hs : s.Laid) {calls : List (Call α)}
    (hcalls : ∀ c ∈ calls, c.Lays)
    {key : String} {which : EdgeEnd} (hnot : ¬ s.Drags calls key which) :
    (s.run calls).chartStage.offset? key which = s.chartStage.offset? key which := by
  induction calls generalizing s with
  | nil => rfl
  | cons c calls ih =>
    have hc := hcalls c List.mem_cons_self
    have hfirst : ∀ p, c = .drag key which p → s.nodeAt? key which = none := by
      intro p hdrag
      by_contra hnode
      exact hnot ⟨[], p, calls, by rw [hdrag]; rfl, Option.isSome_iff_ne_none.mpr hnode⟩
    have hrest := ih (hs.call hexact hc) (fun other hother => hcalls other (List.mem_cons_of_mem _ hother))
      fun hlater => hnot hlater.cons
    exact hrest.trans (hs.call_offset? hc hfirst)

/-- Calls of which none resizes a node leave the size with which it would come
    onto the chart. -/
theorem run_placedExtent (hexact : Scalar.Exact α) (hs : s.Laid) {calls : List (Call α)}
    (hcalls : ∀ c ∈ calls, c.Lays) {id : String} (hnot : ∀ c ∈ calls, ¬ c.Sizes id) :
    (s.run calls).chartStage.placedExtent id = s.chartStage.placedExtent id := by
  induction calls generalizing s with
  | nil => rfl
  | cons c calls ih =>
    have hc := hcalls c List.mem_cons_self
    have hrest := ih (hs.call hexact hc) (fun other hother => hcalls other (List.mem_cons_of_mem _ hother))
      fun other hother => hnot other (List.mem_cons_of_mem _ hother)
    exact hrest.trans (hs.call_placedExtent hc (hnot c List.mem_cons_self))

end Laid

omit [Scalar α] in
/-- An end is at a node only if its edge is on the chart. -/
theorem exists_of_nodeAt? {s : Session α} {key : String} {which : EdgeEnd} {x : String × Rect α}
    (h : s.nodeAt? key which = some x) : ∃ e, s.picture.chartOrEmpty.edges[key]? = some e := by
  obtain ⟨e, he, -⟩ := Option.bind_eq_some_iff.mp h
  exact ⟨e, he⟩

omit [Scalar α] in
/-- An end is at its node with the rectangle that the node has. -/
theorem rect?_of_nodeAt? {s : Session α} {key : String} {which : EdgeEnd} {id : String} {r : Rect α}
    (h : s.nodeAt? key which = some (id, r)) : s.chartStage.picture.rect? id = some r := by
  obtain ⟨e, -, hnode⟩ := Option.bind_eq_some_iff.mp h
  obtain ⟨r', hr', heq⟩ := Option.map_eq_some_iff.mp hnode
  obtain ⟨rfl, rfl⟩ := Prod.mk.inj heq
  rw [Session.chartStage_picture]
  exact hr'

/-- How an end of an edge stands to its node, after it was dragged towards a
    point from the node with that id and that rectangle, and then some calls
    were made that did not drag it. The node has the second rectangle now. -/
structure Attached (s : Session ℝ) (key : String) (e : EdgeItem ℝ) (which : EdgeEnd) (p : Point ℝ)
    (after : List (Call ℝ)) (id : String) (r r' : Rect ℝ) : Prop where
  nodeAt? : s.nodeAt? key which = some (e.edge.nodeAt which, r')
  /-- It is as far off the center as it was. -/
  endPoint : e.route.endPoint which = r'.center + (r.borderPoint p - r.center)
  /-- It is on the border that the node had, moved to where its center is
      now. -/
  onMoved : (r.shift (r'.center - r.center)).OnBorder (e.route.endPoint which)
  /-- It is on the border that the node has, if that has the size that it
      had. -/
  onBorder : r'.extent = r.extent → r'.OnBorder (e.route.endPoint which)
  /-- The node has the size that it had if it was neither resized nor
      normalized. -/
  extent_eq : e.edge.nodeAt which = id → (∀ c ∈ after, ¬ c.Sizes id) → r'.extent = r.extent

end Session

section Exact

/-- A rectangle has a size if its width and its height are positive. -/
theorem Rect.sized_real {r : Rect ℝ} : r.Sized ↔ 0 < r.width ∧ 0 < r.height := by
  rw [Rect.Sized, Scalar.zero_real]

/-- Rectangles of one size are moved onto each other by moving the centers. -/
theorem Rect.shift_center_sub_center {r r' : Rect ℝ} (h : r'.extent = r.extent) :
    r.shift (r'.center - r.center) = r' := by
  obtain ⟨hwidth, hheight⟩ := Extent.mk.inj h
  have hx : r.x + (r'.center.x - r.center.x) = r'.x := by
    simp only [Rect.center, hwidth]
    ring
  have hy : r.y + (r'.center.y - r.center.y) = r'.y := by
    simp only [Rect.center, hheight]
    ring
  show (⟨r.x + (r'.center.x - r.center.x), r.y + (r'.center.y - r.center.y), r.width, r.height⟩ : Rect ℝ) = r'
  rw [hx, hy, ← hwidth, ← hheight]

theorem Point.add_sub_comm (p q v : Point ℝ) : p + (q - v) = q + (p - v) :=
  congrArg₂ Point.mk (add_sub_left_comm ..) (add_sub_left_comm ..)

namespace Session

/-- An end that was dragged last is attached to its node, whatever was rendered,
    moved, resized or normalized after that. -/
theorem Laid.attached {s : Session ℝ} (hs : s.Laid) {key : String} {which : EdgeEnd} {p : Point ℝ} {id : String}
    {r : Rect ℝ} (hnode : s.nodeAt? key which = some (id, r)) (hp : r.Clear p) {after : List (Call ℝ)}
    (hafter : ∀ c ∈ after, c.Lays)
    (hlast : ¬ (s.call (.drag key which p)).Drags after key which) {e : EdgeItem ℝ}
    (he : ((s.call (.drag key which p)).run after).picture.chartOrEmpty.edges[key]? = some e) :
    ∃ r', Attached ((s.call (.drag key which p)).run after) key e which p after id r r' := by
  have hexact := Scalar.exact_real
  have hdragged : (s.call (.drag key which p)).Laid := hs.call hexact trivial
  have hrun := hdragged.run hexact hafter
  have hoffset : ((s.call (.drag key which p)).run after).chartStage.offset? key which =
      some (r.borderPoint p - r.center) :=
    (hdragged.run_offset? hexact hafter hlast).trans (hs.drag_offset? hnode)
  rw [← Session.chartStage_picture] at he
  obtain ⟨r', hnode', hend⟩ := hrun.stage.endPoint_eq he hoffset
  rw [Laid.nodeAt?_eq] at hnode'
  have hsized := Rect.sized_real.mp (hs.stage.sizesKept.sized hexact (rect?_of_nodeAt? hnode))
  have hborder : r.OnBorder (r.borderPoint p) := Rect.borderPoint_onBorder hsized.1 hsized.2 hp
  have hmoved : (r.shift (r'.center - r.center)).OnBorder (e.route.endPoint which) := by
    rw [hend, Point.add_sub_comm]
    exact hborder.shift _
  refine ⟨r', hnode', hend, hmoved, fun hextent => ?_, fun hid hsizes => ?_⟩
  · rw [Rect.shift_center_sub_center hextent] at hmoved
    exact hmoved
  · have hbefore := hs.stage.sizesKept id r (rect?_of_nodeAt? hnode)
    have hnow := hrun.stage.sizesKept _ r' (rect?_of_nodeAt? hnode')
    rw [hid, hdragged.run_placedExtent hexact hafter hsizes] at hnow
    rw [hnow, hbefore]
    exact hs.call_placedExtent (c := .drag key which p) trivial not_false

/-- Wherever an end of an edge was dragged to: whatever is rendered, moved,
    resized or normalized after it, the end stands at the same offset from where
    the center of its node then is. So it stays on the border of the node as
    long as the node has the size that it had, and a node changes its size only
    when it is resized or normalized: one that leaves the chart and comes back
    has the size that it had. No end may be dragged so near to the center of its
    node that there is no direction in which to look for the border. -/
theorem attached_run (measure : Measure ℝ) (store : Store ℝ) {calls : List (Call ℝ)}
    (hcalls : ∀ c ∈ calls, c.Lays)
    (hclear : ∀ before key which p after id r, calls = before ++ .drag key which p :: after →
      ((Session.start measure store).run before).nodeAt? key which = some (id, r) → r.Clear p)
    {key : String} {which : EdgeEnd} (hdrags : (Session.start measure store).Drags calls key which) {e : EdgeItem ℝ}
    (he : ((Session.start measure store).run calls).picture.chartOrEmpty.edges[key]? = some e) :
    ∃ before p after id r r', calls = before ++ .drag key which p :: after ∧
      (Session.start measure store).DragsLast before key which p after id r ∧
      Attached ((Session.start measure store).run calls) key e which p after id r r' := by
  obtain ⟨before, p, after, id, r, rfl, hlast⟩ := hdrags.exists_last
  have hbefore := (Laid.start measure store).run Scalar.exact_real fun c hc =>
    hcalls c (List.mem_append_left _ hc)
  have hafter : ∀ c ∈ after, c.Lays := fun c hc => hcalls c (List.mem_append_right _ (List.mem_cons_of_mem _ hc))
  have hrun : (Session.start measure store).run (before ++ .drag key which p :: after) =
      (((Session.start measure store).run before).call (.drag key which p)).run after :=
    List.foldl_append
  rw [hrun] at he ⊢
  obtain ⟨r', hattached⟩ :=
    hbefore.attached hlast.nodeAt? (hclear _ _ _ _ _ _ _ rfl hlast.nodeAt?) hafter hlast.last he
  exact ⟨before, p, after, id, r, r', rfl, hlast, hattached⟩

section Pair

/-- Two nodes side by side, and an edge from the left one to the right one. -/
def joinedPair : Flowchart :=
  { nodes := [⟨"a", "A", none⟩, ⟨"b", "B", none⟩], edges := [{ source := "a", target := "b" }] }

/-- The key of that edge. -/
def pairKey : String := "a|b||arrow"

/-- The pair is shown, the start of its edge is dragged to the right side of the
    left node, and one thing more is done. -/
def pairCalls (c : Call ℝ) : List (Call ℝ) :=
  [.render (.flowchart joinedPair), .drag pairKey .start ⟨400, 30⟩, c]

/-- The pair over an empty store. -/
noncomputable def pairShown : Session ℝ :=
  (Session.start (fun _ => ⟨0, 0⟩) Store.inMemory).call (.render (.flowchart joinedPair))

/-- The left node is at the place of the first node. -/
noncomputable abbrev leftPlace : Rect ℝ := Layout.nodeRect 0 .topDown

theorem nodeAt?_pairShown : pairShown.nodeAt? pairKey .start = some ("a", leftPlace) := by
  have hplace : ∃ r, pairShown.nodeAt? pairKey .start = some ("a", r) ∧ r = leftPlace := ⟨_, rfl, rfl⟩
  obtain ⟨r, hr, rfl⟩ := hplace
  exact hr

theorem clear_leftPlace : leftPlace.Clear ⟨400, 30⟩ := by
  refine .inl ?_
  simp only [Scalar.nodeRect_real, Rect.center, Scalar.half_real]
  norm_num

theorem borderPoint_leftPlace : leftPlace.borderPoint ⟨400, 30⟩ = ⟨160, 30⟩ := by
  unfold Rect.borderPoint Scalar.clamp
  simp only [Scalar.nodeRect_real, Rect.center, Rect.right, Scalar.abs_real, Scalar.half_real,
    Scalar.centerTolerance_real, Scalar.zero_real]
  norm_num

theorem laid_pairShown : pairShown.Laid :=
  (Laid.start _ _).call Scalar.exact_real trivial

variable {c : Call ℝ}

theorem run_singleton (s : Session ℝ) (c : Call ℝ) : s.run [c] = s.call c :=
  rfl

theorem run_pairCalls (c : Call ℝ) : (Session.start (fun _ => ⟨0, 0⟩) Store.inMemory).run (pairCalls c) =
    (pairShown.call (.drag pairKey .start ⟨400, 30⟩)).call c := by
  simp only [pairCalls, pairShown, run, List.foldl_cons, List.foldl_nil]

theorem drags_pairCalls (c : Call ℝ) :
    (Session.start (fun _ => ⟨0, 0⟩) Store.inMemory).Drags (pairCalls c) pairKey .start :=
  ⟨[.render (.flowchart joinedPair)], ⟨400, 30⟩, [c], rfl, Option.isSome_of_eq_some nodeAt?_pairShown⟩

/-- The only end that is dragged is dragged away from the center of its node. -/
theorem clear_pairCalls (hc : ∀ key which p, c ≠ .drag key which p) (before : List (Call ℝ)) (key : String)
    (which : EdgeEnd) (p : Point ℝ) (after : List (Call ℝ)) (id : String) (r : Rect ℝ)
    (hcalls : pairCalls c = before ++ .drag key which p :: after)
    (hnode : ((Session.start (fun _ => ⟨0, 0⟩) Store.inMemory).run before).nodeAt? key which = some (id, r)) :
    r.Clear p := by
  rcases before with _ | ⟨first, _ | ⟨second, _ | ⟨third, before⟩⟩⟩
  · cases (List.cons.inj hcalls).1
  · obtain ⟨rfl, hrest⟩ := List.cons.inj hcalls
    cases (List.cons.inj hrest).1
    have hplace := hnode.symm.trans nodeAt?_pairShown
    cases hplace
    exact clear_leftPlace
  · have hthird := (List.cons.inj (List.cons.inj (List.cons.inj hcalls).2).2).1
    exact absurd hthird (hc key which p)
  · simp [pairCalls] at hcalls

/-- The left node is moved. -/
def movedPair : List (Call ℝ) :=
  pairCalls (.editChart (.moveNode "a" ⟨300, 40⟩))

/-- The left node is made wider to the right. -/
def widenedPair : List (Call ℝ) :=
  pairCalls (.editChart (.resizeNode "a" .e ⟨40, 0⟩))

/-- The edge starts on the border of the left node, wherever that is moved. -/
theorem attached_run_movedPair :
    ∃ e, ((Session.start (fun _ => ⟨0, 0⟩) Store.inMemory).run
        movedPair).picture.chartOrEmpty.edges[pairKey]? = some e ∧
      ∃ before p after id r r', movedPair = before ++ .drag pairKey .start p :: after ∧
        (Session.start (fun _ => ⟨0, 0⟩) Store.inMemory).DragsLast before pairKey .start p after id r ∧
        Attached ((Session.start (fun _ => ⟨0, 0⟩) Store.inMemory).run movedPair) pairKey e .start
          p after id r r' := by
  have hcalls : ∀ c ∈ movedPair, c.Lays := by
    simp [movedPair, pairCalls, Call.drag, Call.Lays, ChartEdit.Lays]
  have hshown : (((Session.start (fun _ => ⟨0, 0⟩) Store.inMemory).run
      movedPair).picture.chartOrEmpty.edges[pairKey]?).isSome := by
    have hdragged : (pairShown.call (.drag pairKey .start ⟨400, 30⟩)).Laid :=
      laid_pairShown.call Scalar.exact_real trivial
    obtain ⟨e, he⟩ := exists_of_nodeAt? nodeAt?_pairShown
    rw [movedPair, run_pairCalls]
    refine (hdragged.edges_editChart (e := .moveNode "a" ⟨300, 40⟩) trivial pairKey).trans ?_
    refine (laid_pairShown.edges_editChart (e := .setAnchor pairKey .start ⟨400, 30⟩) trivial pairKey).trans ?_
    exact Option.isSome_of_eq_some he
  obtain ⟨e, he⟩ := Option.isSome_iff_exists.mp hshown
  refine ⟨e, he, attached_run _ _ hcalls (fun before key which p after id r => ?_) (drags_pairCalls _) he⟩
  exact clear_pairCalls (by simp [Call.drag]) before key which p after id r

/-- The left node, wider. -/
def widerPlace : Rect ℝ := ⟨0, 0, 200, 60⟩

theorem nodeAt?_widenedPair :
    ((Session.start (fun _ => ⟨0, 0⟩) Store.inMemory).run widenedPair).nodeAt? pairKey .start =
    some ("a", widerPlace) := by
  have hplace : ∃ r, ((Session.start (fun _ => ⟨0, 0⟩) Store.inMemory).run widenedPair).nodeAt? pairKey .start =
      some ("a", r) ∧ r = (Layout.nodeRect 0 .topDown).resize .e ⟨40, 0⟩ Layout.minNodeSize := ⟨_, rfl, rfl⟩
  obtain ⟨r, hr, rfl⟩ := hplace
  have hwidth : Scalar.greater (50 : ℝ) (160 + 40) = 200 := by
    rw [Scalar.greater, if_pos (by norm_num)]
    norm_num
  rw [hr, Scalar.nodeRect_real, Scalar.minNodeSize_real]
  simp [Rect.resize, Rect.resizeAxis, Handle.isEast, Handle.isSouth, Handle.isNorth, widerPlace, hwidth]

/-- A start that was dragged to the right side of its node is not on the border
    any more once the node is wider. -/
theorem not_onBorder_widenedPair : ¬ ∀ (measure : Measure ℝ) (calls : List (Call ℝ)),
    (∀ c ∈ calls, c.Lays) →
    (∀ before key which p after id r, calls = before ++ .drag key which p :: after →
      ((Session.start measure Store.inMemory).run before).nodeAt? key which = some (id, r) → r.Clear p) →
    ∀ key which, (Session.start measure Store.inMemory).Drags calls key which → ∀ e id r,
      ((Session.start measure Store.inMemory).run calls).picture.chartOrEmpty.edges[key]? = some e →
      ((Session.start measure Store.inMemory).run calls).nodeAt? key which = some (id, r) →
      r.OnBorder (e.route.endPoint which) := by
  intro hall
  have hcalls : ∀ c ∈ widenedPair, c.Lays := by
    simp [widenedPair, pairCalls, Call.drag, Call.Lays, ChartEdit.Lays]
  obtain ⟨e, he⟩ := exists_of_nodeAt? nodeAt?_widenedPair
  have hborder := hall _ _ hcalls (clear_pairCalls (by simp [Call.drag])) _ _ (drags_pairCalls _) e _ _ he
    nodeAt?_widenedPair
  have hnode := nodeAt?_widenedPair
  rw [widenedPair, run_pairCalls, ← run_singleton] at he hnode
  have hlast : ¬ (pairShown.call (.drag pairKey .start ⟨400, 30⟩)).Drags
      [.editChart (.resizeNode "a" .e ⟨40, 0⟩)]
      pairKey .start := by
    rintro ⟨before, p, after, heq, -⟩
    have hmem : Call.drag pairKey .start p ∈ [Call.editChart (.resizeNode "a" .e ⟨40, 0⟩)] := by
      rw [heq]
      simp
    simp [Call.drag] at hmem
  obtain ⟨r', hattached⟩ := laid_pairShown.attached nodeAt?_pairShown clear_leftPlace
    (by simp [Call.Lays, ChartEdit.Lays]) hlast he
  have hplace := hattached.nodeAt?.symm.trans hnode
  obtain ⟨-, rfl⟩ := Prod.mk.inj (Option.some.inj hplace)
  have hpoint : widerPlace.center + ((⟨160, 30⟩ : Point ℝ) - leftPlace.center) = ⟨180, 30⟩ := by
    have hleft : leftPlace.center = ⟨80, 30⟩ := by norm_num [Rect.center, Scalar.nodeRect_real]
    have hwider : widerPlace.center = ⟨100, 30⟩ := by norm_num [Rect.center, widerPlace]
    rw [hleft, hwider]
    show (⟨100 + (160 - 80), 30 + (30 - 30)⟩ : Point ℝ) = _
    norm_num
  rw [hattached.endPoint, borderPoint_leftPlace, hpoint] at hborder
  refine Rect.not_onBorder_of_inside ⟨?_, ?_⟩ ⟨?_, ?_⟩ hborder <;>
    norm_num [widerPlace, Rect.left, Rect.right, Rect.top, Rect.bottom]

end Pair

end Session

end Exact

end LiveDiagram
