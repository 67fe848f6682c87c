import LiveDiagram.Proofs.Chart.Selection
import LiveDiagram.Proofs.Pointer.Gesture
import LiveDiagram.Proofs.Pointer.Hits

namespace LiveDiagram

variable {α : Type}

variable [Scalar α]

/-- A rectangle that is shifted by the way from a point to the same point stays
    where it is. -/
theorem Rect.shift_sub_self (hexact : Scalar.Exact α) (r : Rect α) (p : Point α) : r.shift (p - p) = r :=
  congrArg r.at (congrArg₂ Point.mk (hexact.add_sub_self r.x p.x) (hexact.add_sub_self r.y p.y))

/-- Recording some rectangles one after the other is one save each. -/
theorem Store.saves_foldl_setNode (rects : List (String × Rect α)) {store : Store α} {m : Memory α}
    (hm : store.backend = .memory m) :
    ∃ m', (rects.foldl (fun store x => store.setNode x.1 x.2) store).backend = .memory m' ∧
      m'.saves = m.saves + rects.length := by
  induction rects generalizing store m with
  | nil => exact ⟨m, hm, rfl⟩
  | cons x rects ih =>
    obtain ⟨m₁, hm₁, hfirst⟩ := store.saves_setNode hm x.1 x.2
    obtain ⟨m', hm', hrest⟩ := ih hm₁
    refine ⟨m', hm', ?_⟩
    rw [hrest, hfirst, List.length_cons]
    omega

namespace ChartStage

section Pressing

variable {s : ChartStage α}

theorem deselectEdge_refusal (haccepts : s.surface.Accepts) : s.deselectEdge.refusal = none := by
  unfold deselectEdge
  split
  · rfl
  · rename_i key _
    rw [Outcome.andThen_of_refusal_eq_none (markEdge_marked? haccepts key false).1]
    rfl

/-- Selecting a node is not stopped on a surface that refuses nothing, which
    goes on refusing nothing. -/
theorem setSelected_unstopped (haccepts : s.surface.Accepts) (id : String) (selected : Bool) :
    (s.setSelected id selected).refusal = none ∧ (s.setSelected id selected).state.surface.Accepts := by
  have hsteps := edit_steps (P := fun _ => True) s (.setSelected id selected)
  refine ⟨?_, hsteps.sameSetup.accepts haccepts⟩
  unfold setSelected
  split
  · split
    · rfl
    · exact modifyNode_refusal haccepts id _
  · rfl

theorem clearSelection_unstopped (haccepts : s.surface.Accepts) :
    s.clearSelection.refusal = none ∧ s.clearSelection.state.surface.Accepts :=
  Outcome.forEach_unstopped (P := fun t : ChartStage α => t.surface.Accepts)
    (fun id _ ht => setSelected_unstopped ht id false) haccepts

/-- A node that is selected is one of the selected nodes then. -/
theorem setSelected_mem_selectedNodes {id : String} {r : Rect α} (hr : s.picture.rect? id = some r) :
    id ∈ (s.setSelected id true).state.picture.selectedNodes := by
  obtain ⟨n, hn, -⟩ := Option.map_eq_some_iff.mp hr
  rw [Chart.mem_selectedNodes, setSelected, hn]
  dsimp only
  split
  · exact ⟨n, hn, ‹_›⟩
  · refine ⟨{ n with selected := true }, ?_, rfl⟩
    unfold modifyNode
    rw [hn]
    dsimp only
    rw [set_drawNode, Stage.draw_picture, Chart.setNode_getElem?, if_pos rfl]

end Pressing

/-- Recording several nodes that are there is recording their rectangles. A node
    that is not there would not be recorded, and its save would be missing. -/
theorem foldl_commitNode_store (s : ChartStage α) {moves : List (String × Point α)}
    (hthere : ∀ x ∈ moves, (s.picture.rect? x.1).isSome) :
    ∃ rects : List (String × Rect α), rects.map Prod.fst = moves.map Prod.fst ∧
      (∀ x ∈ rects, s.picture.rect? x.1 = some x.2) ∧
      (moves.foldl (fun t x => commitNode t x.1) s).store =
        rects.foldl (fun store x => store.setNode x.1 x.2) s.store := by
  induction moves generalizing s with
  | nil => exact ⟨[], rfl, by simp, rfl⟩
  | cons x moves ih =>
    obtain ⟨r, hr⟩ := Option.isSome_iff_exists.mp (hthere x List.mem_cons_self)
    obtain ⟨n, hn, hrect⟩ := Option.map_eq_some_iff.mp hr
    have hpicture := commitNode_picture s x.1
    obtain ⟨rects, hids, hrects, hstore⟩ := ih (s.commitNode x.1) fun y hy => by
      rw [hpicture]
      exact hthere y (List.mem_cons_of_mem x hy)
    rw [hpicture] at hrects
    refine ⟨(x.1, r) :: rects, ?_, ?_, ?_⟩
    · rw [List.map_cons, List.map_cons, hids]
    · intro y hy
      rcases List.mem_cons.mp hy with rfl | hy
      · exact hr
      · exact hrects y hy
    · rw [List.foldl_cons, List.foldl_cons, hstore, (commitNode_commits hn).store, hrect]

end ChartStage

namespace Desk

open ChartStage

section Press

variable {s : ChartStage α}

/-- The node that is hit is among those that are dragged. If it was not selected
    before, the others are only if the press was additive. -/
theorem selectForDrag_selects (haccepts : s.surface.Accepts) {id : String} {r : Rect α}
    (hr : s.picture.rect? id = some r) (additive : Bool) :
    (selectForDrag id additive s).refusal = none ∧
      id ∈ (selectForDrag id additive s).state.picture.selectedNodes := by
  obtain ⟨n, hn, -⟩ := Option.map_eq_some_iff.mp hr
  rw [selectForDrag, hn]
  dsimp only
  split
  · exact ⟨rfl, Chart.mem_selectedNodes.mpr ⟨_, hn, ‹_›⟩⟩
  · have hcleared : (if additive then Outcome.done s else s.clearSelection).refusal = none ∧
        (if additive then Outcome.done s else s.clearSelection).state.surface.Accepts ∧
        (if additive then Outcome.done s else s.clearSelection).state.picture.rect? id = s.picture.rect? id := by
      split
      · exact ⟨rfl, haccepts, rfl⟩
      · obtain ⟨hrefusal, haccepts'⟩ := clearSelection_unstopped haccepts
        exact ⟨hrefusal, haccepts', congrFun s.clearSelection_rect? id⟩
    obtain ⟨hrefusal, haccepts', hrect⟩ := hcleared
    rw [Outcome.andThen_of_refusal_eq_none hrefusal]
    exact ⟨(setSelected_unstopped haccepts' id true).1, setSelected_mem_selectedNodes (hrect.trans hr)⟩

variable {d : Desk α}

omit [Scalar α] in
/-- What is quiet on every chart leaves the store of the session. -/
theorem onChart_store (hd : d.session.Ready) {f : ChartStage α → Outcome (ChartStage α)}
    (hf : ∀ t, Quiet t (f t).state) : (d.onChart f).state.session.store = d.session.store := by
  have hstage := congrArg Stage.store (stage_onChart hd f)
  rw [(hf d.stage).store, stage, stage, (Session.chartStage_sameRecords _).1,
    (Session.chartStage_sameRecords _).1] at hstage
  exact hstage

omit [Scalar α] in
/-- What moves no node on any chart moves none on the one that is shown. -/
theorem onChart_rect? (hd : d.session.Ready) {f : ChartStage α → Outcome (ChartStage α)}
    (hf : ∀ t, (f t).state.picture.rect? = t.picture.rect?) :
    (d.onChart f).state.session.rect? = d.session.rect? := by
  have hstage := congrArg (fun t : ChartStage α => t.picture.rect?) (stage_onChart hd f)
  rw [hf d.stage, Session.chartStage_rect?, Session.chartStage_rect?] at hstage
  exact hstage

/-- What a drag of the selected nodes starts with, a node that is there among
    them. Nothing stops it. -/
theorem dragNodes_selects (hd : d.session.Ready) {id : String} {r : Rect α} (hr : d.session.rect? id = some r)
    (additive : Bool) :
    ∃ session c, (d.dragNodes id additive).state =
      ⟨session, { d.pointer with drag := .nodes (selectedCorners c) }⟩ ∧
      session.picture = .chart c ∧ session.Ready ∧ session.store = d.session.store ∧
      c.rect? = d.session.rect? ∧ id ∈ c.selectedNodes := by
  have hthere : d.stage.picture.rect? id = some r := by rw [Session.chartStage_rect?, hr]
  obtain ⟨hselect, hselected⟩ := selectForDrag_selects (Session.accepts_chartStage hd.accepts) hthere additive
  rw [← onChart_refusal hd] at hselect
  rw [← stage_onChart hd] at hselected
  have hready : (d.onChart (selectForDrag id additive)).state.session.Ready :=
    hd.edited (d.edited_onChart fun t => edited_selectForDrag t id additive)
  obtain ⟨c, hc⟩ := hready.chart
  have hchart : (d.onChart (selectForDrag id additive)).state.stage.picture = c := by
    rw [stage, Session.chartStage, hc]
    rfl
  refine ⟨(d.onChart (selectForDrag id additive)).state.session, c, ?_, hc, hready, ?_, ?_, hchart ▸ hselected⟩
  · rw [dragNodes, Outcome.andThen_of_refusal_eq_none hselect, hc]
    rfl
  · exact onChart_store hd fun t => (selectForDrag_quiet t id additive).1
  · rw [← onChart_rect? hd fun t => (selectForDrag_quiet t id additive).2, ← Session.chartStage_rect?]
    exact congrArg Chart.rect? hchart.symm

/-- The chart, the store and the pointer after a left press on a node, which
    nothing stops. -/
theorem press_node (hd : d.session.Ready) {p : Point α} {id : String} (hhit : d.session.hit p = .node id)
    (additive : Bool) :
    ∃ session c, (d.press p .left additive).state =
        under session ⟨.nodes (selectedCorners c), .node id, p, p⟩ p ∧
      session.picture = .chart c ∧ session.Ready ∧ session.store = d.session.store ∧
      c.rect? = d.session.rect? ∧ id ∈ c.selectedNodes := by
  let pressed : Desk α := { d with pointer := { d.pointer with pressed := p, last := p, active := .node id } }
  have hpress : d.press p .left additive =
      (pressed.onChart deselectEdge).andThen fun e => e.dragNodes id additive := by
    rw [press, hhit]
    rfl
  have hdeselect : (pressed.onChart deselectEdge).refusal = none :=
    (onChart_refusal (d := pressed) hd _).trans
      (deselectEdge_refusal (Session.accepts_chartStage hd.accepts))
  have hready : (pressed.onChart deselectEdge).state.session.Ready :=
    Session.Ready.edited (pressed.edited_onChart fun t => t.edited_edit .deselectEdge) hd
  have hstore := onChart_store (d := pressed) hd deselectEdge_quiet
  have hrect := onChart_rect? (d := pressed) hd deselectEdge_rect?
  obtain ⟨r, hr⟩ : ∃ r, (pressed.onChart deselectEdge).state.session.rect? id = some r := by
    obtain ⟨c, hc, hid⟩ := Session.chart_of_hit hhit ⟨by simp, by simp⟩
    rw [hrect, Session.rect?, hc]
    exact ⟨_, congrArg (Option.map NodeItem.rect) (Std.ExtTreeMap.getElem?_eq_some_getElem hid)⟩
  obtain ⟨session, c, hdrag, hc, hready', hstore', hrect', hid⟩ := dragNodes_selects hready hr additive
  rw [hpress, Outcome.andThen_of_refusal_eq_none hdeselect]
  exact ⟨session, c, hdrag, hc, hready', hstore'.trans hstore, hrect'.trans hrect, hid⟩

end Press

/-- What is known of a session while the selected nodes of a chart are dragged
    from a point. -/
structure Follows (c : Chart α) (store : Store α) (start last : Point α) (session : Session α) : Prop where
  ready : session.Ready
  store_eq : session.store = store
  rect? : ∀ id, session.rect? id =
    (c.rect? id).map fun r => if id ∈ c.selectedNodes then r.shift (last - start) else r

section Follow

variable {c : Chart α} {store : Store α} {held : Pointer α} {session : Session α}

/-- At the press every node is where it was. -/
theorem follows_start (hexact : Scalar.Exact α) (hready : session.Ready) (hrect : session.rect? = c.rect?)
    (start : Point α) : Follows c session.store start start session where
  ready := hready
  store_eq := rfl
  rect? id := by
    rw [hrect]
    cases c.rect? id with
    | none => rfl
    | some r => rw [Option.map_some, Rect.shift_sub_self hexact, ite_self]

/-- A drag to another point puts the nodes there from where they were at the
    press. So nothing of the last point is left: the last rectangle leaves no
    trace but its size, and rounding does not add up. -/
theorem carries_nodes (c : Chart α) (store : Store α) (hdrag : held.drag = .nodes (selectedCorners c)) :
    Carries held (Follows c store held.pressed) := by
  intro session last q h
  have hnodes : (under session held last).pointer.drag = .nodes (selectedCorners c) := hdrag
  have hcomplete : (under session held last).stage.picture.Linked ∧
    (under session held last).stage.picture.Complete :=
    h.ready.sound.chartStage
  have haccepts : (under session held last).stage.surface.Accepts := Session.accepts_chartStage h.ready.accepts
  have hstage := stage_onChart (d := under session held last) h.ready
    (Outcome.forEach (selectedCorners c) fun x t => moveNode t x.1 ((under session held last).dragged q x.2))
  rw [← dragTo_of_nodes hnodes] at hstage
  refine ⟨dragTo_refusal h.ready q, h.ready.edited (edited_dragTo _ q), ?_, fun id => ?_⟩
  · obtain ⟨-, hstore, -⟩ := forEach_moveNode hcomplete haccepts (selectedCorners c)
      ((under session held last).dragged q)
    rw [← hstage, (Session.chartStage_sameRecords _).1, (Session.chartStage_sameRecords _).1] at hstore
    exact hstore.trans h.store_eq
  · have hmoved := rect?_forEach_moveNode hcomplete haccepts (selectedCorners c)
      ((under session held last).dragged q) id
    rw [← hstage, Session.chartStage_rect?, Session.chartStage_rect?, h.rect? id, start?_selectedCorners]
      at hmoved
    refine hmoved.trans ?_
    cases hr : c.rect? id with
    | none => rfl
    | some r =>
      by_cases hid : id ∈ c.selectedNodes
      · simp only [if_pos hid, Option.map_some]
        rfl
      · simp only [if_neg hid, Option.map_some]
        rfl

/-- The release records each selected node where it is, if it is away from the
    press, and nothing otherwise. -/
theorem Follows.commit (hexact : Scalar.Exact α) (hdrag : held.drag = .nodes (selectedCorners c)) {q : Point α}
    (h : Follows c store held.pressed q session) :
    ((under session held q).commitDrag q).session.rect? = session.rect? ∧
    (q = held.pressed → ((under session held q).commitDrag q).session.store = store) ∧
    (q ≠ held.pressed → ∃ rects : List (String × Rect α), rects.map Prod.fst = c.selectedNodes ∧
      (∀ x ∈ rects, session.rect? x.1 = some x.2) ∧
      ((under session held q).commitDrag q).session.store =
        rects.foldl (fun store x => store.setNode x.1 x.2) store) := by
  let commit : ChartStage α → Outcome (ChartStage α) := fun s =>
    .done ((selectedCorners c).foldl (fun t x => commitNode t x.1) s)
  have hcommit : (under session held q).commitDrag q = if q.same held.pressed then under session held q else
      ((under session held q).onChart commit).state := by
    have hnodes : (under session held q).pointer.drag = .nodes (selectedCorners c) := hdrag
    rw [commitDrag, hnodes]
  have hids := map_fst_selectedCorners c
  by_cases hq : q = held.pressed
  · rw [hcommit, if_pos ((Point.same_iff hexact).mpr hq)]
    exact ⟨rfl, fun _ => h.store_eq, fun hne => absurd hq hne⟩
  · rw [hcommit, if_neg fun hsame => hq ((Point.same_iff hexact).mp hsame)]
    have hrect := onChart_rect? (d := under session held q) h.ready (f := commit) fun t =>
      congrArg Chart.rect? (foldl_commitNode t (selectedCorners c)).1
    have hthere : ∀ x ∈ selectedCorners c, (session.chartStage.picture.rect? x.1).isSome := by
      intro x hx
      obtain ⟨n, hn, -⟩ := Chart.mem_selectedNodes.mp (hids ▸ List.mem_map_of_mem hx)
      rw [Session.chartStage_rect?, h.rect? x.1, Option.isSome_map, Chart.rect?, hn]
      rfl
    obtain ⟨rects, hrectIds, hrects, hstore⟩ := foldl_commitNode_store session.chartStage hthere
    refine ⟨hrect, fun heq => absurd heq hq, fun _ => ⟨rects, hrectIds.trans hids, fun x hx => ?_, ?_⟩⟩
    · rw [← Session.chartStage_rect?]
      exact hrects x hx
    · have hstage := congrArg Stage.store (stage_onChart (d := under session held q) h.ready commit)
      rw [stage, (Session.chartStage_sameRecords _).1] at hstage
      refine hstage.trans (hstore.trans ?_)
      rw [(Session.chartStage_sameRecords _).1, h.store_eq]

end Follow

end Desk

end LiveDiagram
