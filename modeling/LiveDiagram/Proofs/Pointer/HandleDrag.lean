import LiveDiagram.Proofs.Pointer.Drags

namespace LiveDiagram

namespace Handle

/-- A handle that moves the right side does not move the left one. -/
theorem isWest_of_isEast {h : Handle} (hh : h.isEast = true) : h.isWest = false := by
  cases h <;> first | rfl | cases hh

/-- A handle that moves the bottom side does not move the top one. -/
theorem isNorth_of_isSouth {h : Handle} (hh : h.isSouth = true) : h.isNorth = false := by
  cases h <;> first | rfl | cases hh

end Handle

namespace Rect

/-- What is left of an axis by a resize of its far or its near end, or of none
    of both. -/
structure AxisKept (far near : Bool) (start length start' length' : ℝ) : Prop where
  least : 50 ≤ length'
  start_eq : near = false → start' = start
  stop_eq : near = true → start' + length' = start + length
  length_eq : far = false → near = false → length' = length

theorem AxisKept.refl {far near : Bool} {start length : ℝ} (hlength : 50 ≤ length) :
    AxisKept far near start length start length :=
  ⟨hlength, fun _ => rfl, fun _ => rfl, fun _ _ => rfl⟩

/-- One step more keeps what the steps before it kept. A step that would leave
    too little is cut short at the far end and does nothing at the near end, so
    the steps do not add up to the way of the pointer, and only the other end is
    certain. -/
theorem AxisKept.resize {far near : Bool} (hends : far = true → near = false) {start length start' length' : ℝ}
    (h : AxisKept far near start length start' length') (step : ℝ) :
    AxisKept far near start length (resizeAxis far near start' length' step Layout.minNodeSize).1
      (resizeAxis far near start' length' step Layout.minNodeSize).2 := by
  unfold resizeAxis
  rw [Scalar.minNodeSize_real]
  split
  · -- the far end moves, as far as the least length allows
    rename_i hfar
    refine ⟨?_, h.start_eq, fun hnear => ?_, fun hnot => ?_⟩
    · unfold Scalar.greater
      split
      · exact le_of_lt ‹_›
      · exact le_rfl
    · rw [hends hfar] at hnear
      cases hnear
    · rw [hfar] at hnot
      cases hnot
  · split
    · rename_i hnear
      refine ⟨hnear.2, fun hnot => ?_, fun _ => ?_, fun _ hnot => ?_⟩
      · rw [hnear.1] at hnot
        cases hnot
      · rw [← h.stop_eq hnear.1]
        ring
      · rw [hnear.1] at hnot
        cases hnot
    · exact h

/-- What dragging a handle keeps of a rectangle: the side opposite to the handle
    on each axis that the handle moves, the whole of an axis that it does not
    move, and a least size. -/
structure ResizedBy (h : Handle) (r r' : Rect ℝ) : Prop where
  least_width : 50 ≤ r'.width
  least_height : 50 ≤ r'.height
  left : h.isWest = false → r'.left = r.left
  right : h.isWest = true → r'.right = r.right
  top : h.isNorth = false → r'.top = r.top
  bottom : h.isNorth = true → r'.bottom = r.bottom
  width : h.isEast = false → h.isWest = false → r'.width = r.width
  height : h.isSouth = false → h.isNorth = false → r'.height = r.height

/-- A rectangle is resized by a handle if each of its axes is. -/
theorem resizedBy_iff {h : Handle} {r r' : Rect ℝ} :
    r.ResizedBy h r' ↔ AxisKept h.isEast h.isWest r.x r.width r'.x r'.width ∧
      AxisKept h.isSouth h.isNorth r.y r.height r'.y r'.height :=
  ⟨fun hr => ⟨⟨hr.least_width, hr.left, hr.right, hr.width⟩,
    ⟨hr.least_height, hr.top, hr.bottom, hr.height⟩⟩,
    fun ⟨hx, hy⟩ =>
      ⟨hx.least, hy.least, hx.start_eq, hx.stop_eq, hy.start_eq, hy.stop_eq, hx.length_eq, hy.length_eq⟩⟩

/-- A rectangle that is large enough is where a handle leads to without a
    step. -/
theorem ResizedBy.refl {h : Handle} {r : Rect ℝ} (hwidth : 50 ≤ r.width) (hheight : 50 ≤ r.height) :
    r.ResizedBy h r :=
  resizedBy_iff.mpr ⟨.refl hwidth, .refl hheight⟩

/-- A step of the handle leads on from where it led before. -/
theorem ResizedBy.resize {h : Handle} {r r' : Rect ℝ} (hr : r.ResizedBy h r') (step : Point ℝ) :
    r.ResizedBy h (r'.resize h step Layout.minNodeSize) := by
  obtain ⟨hx, hy⟩ := resizedBy_iff.mp hr
  exact resizedBy_iff.mpr ⟨hx.resize Handle.isWest_of_isEast step.x, hy.resize Handle.isNorth_of_isSouth step.y⟩

end Rect

namespace Session

/-- The node has a rectangle that its handle leads to from another one. -/
def Resized (s : Session ℝ) (id : String) (h : Handle) (r : Rect ℝ) : Prop :=
  ∃ r', s.rect? id = some r' ∧ r.ResizedBy h r'

/-- The store records the node as it is. -/
def Records (s : Session ℝ) (id : String) : Prop :=
  s.store.node? id = s.rect? id

end Session

namespace Desk

open ChartStage

section Press

variable {α : Type} [Scalar α] {d : Desk α}

/-- A handle that is hit is dragged, after the selected edge was taken out of
    the selection. -/
theorem press_handle (hd : d.session.Ready) {p : Point α} {id : String} {h : Handle}
    (hhit : d.session.hit p = .handle id h) (additive : Bool) :
    ∃ session, (d.press p .left additive).state = under session ⟨.handle, .handle id h, p, p⟩ p ∧
      session.Ready ∧ session.store = d.session.store ∧ session.rect? = d.session.rect? := by
  let pressed : Desk α := { d with pointer := { d.pointer with pressed := p, last := p, active := .handle id h } }
  have hpress : d.press p .left additive =
      (pressed.onChart deselectEdge).andThen fun e => .done (e.withDrag .handle) := by
    rw [press, hhit]
    rfl
  have hdeselect : (pressed.onChart deselectEdge).refusal = none :=
    (onChart_refusal (d := pressed) hd _).trans
      (deselectEdge_refusal (Session.accepts_chartStage hd.accepts))
  rw [hpress, Outcome.andThen_of_refusal_eq_none hdeselect]
  refine ⟨(pressed.onChart deselectEdge).state.session, rfl, ?_, ?_, ?_⟩
  · exact Session.Ready.edited (pressed.edited_onChart fun t => t.edited_edit .deselectEdge) hd
  · exact onChart_store (d := pressed) hd deselectEdge_quiet
  · exact onChart_rect? (d := pressed) hd deselectEdge_rect?

end Press

section Resize

variable {held : Pointer ℝ} {session : Session ℝ} {id : String} {h : Handle} {r : Rect ℝ}

/-- A drag of the handle to another point resizes the node, and records it. -/
theorem dragTo_handle (hdrag : held.drag = .handle) (hactive : held.active = .handle id h) (hready : session.Ready)
    (hresized : session.Resized id h r) (last q : Point ℝ) :
    ((under session held last).dragTo q).refusal = none ∧
      ((under session held last).dragTo q).state.session.Ready ∧
      ((under session held last).dragTo q).state.session.Resized id h r ∧
      ((under session held last).dragTo q).state.session.Records id := by
  obtain ⟨r', hr', hkept⟩ := hresized
  have hdragTo : (under session held last).dragTo q =
      (under session held last).onChart fun s => s.resizeNode id h (q - last) := by
    have hhandle : (under session held last).pointer.drag = .handle := hdrag
    rw [dragTo, hhandle]
    simp only [hactive]
    rfl
  have hstage := stage_onChart (d := under session held last) hready fun s => s.resizeNode id h (q - last)
  rw [← hdragTo] at hstage
  have hcomplete : (under session held last).stage.picture.Complete := hready.sound.chartStage.2
  have hrect := resizeNode_rect? (under session held last).stage id id h (q - last)
  have hnode := resizeNode_node? hcomplete (Session.accepts_chartStage hready.accepts) id id h (q - last)
  rw [← hstage, Session.chartStage_rect?, if_pos rfl, Session.chartStage_rect?, hr'] at hrect
  rw [← hstage, Session.chartStage_rect?, (Session.chartStage_sameRecords _).1, if_pos rfl, hrect] at hnode
  refine ⟨dragTo_refusal hready q, hready.edited (edited_dragTo _ q), ⟨_, hrect, hkept.resize (q - last)⟩, ?_⟩
  exact hnode.trans hrect.symm

/-- From the first step on, the node is recorded as it is. -/
theorem carries_handle (hdrag : held.drag = .handle) (hactive : held.active = .handle id h) :
    Carries held fun _ session => session.Ready ∧ session.Resized id h r ∧ session.Records id :=
  fun _ last q hknown => dragTo_handle hdrag hactive hknown.1 hknown.2.1 last q

/-- Moves of the handle resize the node, and record it if there is any. -/
theorem moves_handle [YamlReader] (hdrag : held.drag = .handle) (hactive : held.active = .handle id h)
    (hready : session.Ready)
    (hresized : session.Resized id h r) (last : Point ℝ) {moves : List (Point ℝ)} (hmoves : moves ≠ []) :
    ∃ session' last', (under session held last).events (moves.map .move) = under session' held last' ∧
      session'.Ready ∧ session'.Resized id h r ∧ session'.Records id := by
  cases moves with
  | nil => exact absurd rfl hmoves
  | cons p moves =>
    obtain ⟨hrefusal, hknown⟩ := dragTo_handle hdrag hactive hready hresized last p
    have hmove : ((under session held last).move p).state =
        under ((under session held last).dragTo p).state.session held p := by
      rw [move_of_unstopped hrefusal]
      rfl
    have hcarries : Carries held fun _ session => session.Ready ∧ session.Resized id h r ∧ session.Records id :=
      carries_handle hdrag hactive
    obtain ⟨session', last', hevents, hknown'⟩ := Carries.moves hcarries hknown moves
    refine ⟨session', last', ?_, hknown'⟩
    rw [← hevents, ← hmove]
    rfl

/-- The release leaves the node resized, and recorded if it was or if the
    release is a step away. -/
theorem release_handle (hdrag : held.drag = .handle) (hactive : held.active = .handle id h) (hready : session.Ready)
    (hresized : session.Resized id h r) (last q : Point ℝ) :
    ((under session held last).release q .left).state.session.Resized id h r ∧
      (session.Records id ∨ q ≠ last →
        ((under session held last).release q .left).state.session.Records id) := by
  have hcarries : Carries held fun last' session' => session'.Ready ∧ session'.Resized id h r ∧
      (session'.Records id ∨ last' = last ∧ session' = session) := by
    intro session' last' p hknown
    obtain ⟨hrefusal, hready', hresized', hrecords⟩ := dragTo_handle hdrag hactive hknown.1 hknown.2.1 last' p
    exact ⟨hrefusal, hready', hresized', .inl hrecords⟩
  obtain ⟨session', hreleased, -, hresized', hcases⟩ := hcarries.release Scalar.exact_real
    ⟨hready, hresized, .inr ⟨rfl, rfl⟩⟩ (by rw [hdrag]; simp) q
  have hcommit : ((under session' held q).commitDrag q).session = session' := by
    have hhandle : (under session' held q).pointer.drag = .handle := hdrag
    rw [commitDrag, hhandle]
  rw [hreleased, hcommit]
  refine ⟨hresized', fun hrecords => ?_⟩
  rcases hcases with hrecorded | ⟨hlast, rfl⟩
  · exact hrecorded
  · exact hrecords.resolve_right fun hne => hne hlast

end Resize

/-- The gesture resizes the node by the handle, from the rectangle that it has
    at the press. -/
structure ResizesNode [YamlReader] (d : Desk ℝ) (p : Point ℝ) (additive : Bool) (moves : List (Point ℝ))
    (q : Point ℝ) (id : String)
    (h : Handle) (r : Rect ℝ) : Prop where
  /-- After the moves and after the release, what the handle does not move is
      where it was. -/
  held : (d.events (Event.held p additive moves)).session.Resized id h r
  released : (d.events (Event.gesture p additive moves q)).session.Resized id h r
  /-- The node is recorded as it is, after the moves and after the release. -/
  heldRecords : moves ≠ [] → (d.events (Event.held p additive moves)).session.Records id
  releasedRecords : moves ≠ [] ∨ q ≠ p → (d.events (Event.gesture p additive moves q)).session.Records id
  /-- Before the first step nothing is recorded, and nothing at all without a
      step. -/
  heldQuiet : moves = [] → (d.events (Event.held p additive moves)).session.store = d.session.store
  releasedQuiet : moves = [] → q = p →
    (d.events (Event.gesture p additive moves q)).session.store = d.session.store

theorem events_held [YamlReader] (d : Desk ℝ) (p : Point ℝ) (additive : Bool) (moves : List (Point ℝ)) :
    d.events (Event.held p additive moves) = (d.press p .left additive).state.events (moves.map .move) :=
  rfl

/-- A gesture on a resize handle resizes the node. The node must have the least
    size at the press, as a smaller one would be enlarged on the far side
    first. -/
theorem resizesNode [YamlReader] {d : Desk ℝ} (hd : d.session.Ready) {p : Point ℝ} {id : String} {h : Handle}
    {r : Rect ℝ}
    (hhit : d.session.hit p = .handle id h) (hr : d.session.rect? id = some r) (hwidth : 50 ≤ r.width)
    (hheight : 50 ≤ r.height) (additive : Bool) (moves : List (Point ℝ)) (q : Point ℝ) :
    d.ResizesNode p additive moves q id h r := by
  obtain ⟨session, hpress, hready, hstore, hrect⟩ := press_handle hd hhit additive
  let held : Pointer ℝ := ⟨.handle, .handle id h, p, p⟩
  have hdrag : held.drag = .handle := rfl
  have hactive : held.active = .handle id h := rfl
  have hresized : session.Resized id h r := ⟨r, hrect ▸ hr, .refl hwidth hheight⟩
  have hgesture : d.events (Event.gesture p additive moves q) =
      ((d.events (Event.held p additive moves)).release q .left).state := events_append_singleton ..
  by_cases hmoves : moves = []
  · subst hmoves
    have hheld : d.events (Event.held p additive []) = under session held p := hpress
    obtain ⟨hreleased, hrecords⟩ := release_handle hdrag hactive hready hresized p q
    constructor <;> simp only [hgesture, hheld]
    · exact hresized
    · exact hreleased
    · exact fun hne => absurd rfl hne
    · exact fun haway => hrecords (.inr (haway.resolve_left fun hne => hne rfl))
    · exact fun _ => hstore
    · rintro - rfl
      rw [release_left_session (d := under session held q) Scalar.exact_real hready rfl rfl]
      exact hstore
  · obtain ⟨session', last, hheld, hready', hresized', hrecords⟩ :=
      moves_handle hdrag hactive hready hresized p hmoves
    rw [← hpress, ← events_held] at hheld
    obtain ⟨hreleased, hkeeps⟩ := release_handle hdrag hactive hready' hresized' last q
    constructor <;> simp only [hgesture, hheld]
    · exact hresized'
    · exact hreleased
    · exact fun _ => hrecords
    · exact fun _ => hkeeps (.inl hrecords)
    · exact fun hnone => absurd hnone hmoves
    · exact fun hnone => absurd hnone hmoves

/-- However the desk came about, a gesture on a resize handle keeps the opposite
    side of the node, and records the node after every step. The steps need not
    add up to the way of the pointer, because one that would leave too little of
    the node is cut short. The node must have the least size at the press: a
    smaller one stays as small on an axis that the handle does not move. -/
theorem resizes_events [YamlReader] (measure : Measure ℝ) (store : Store ℝ) {past : List (Event ℝ)}
    {d : Desk ℝ}
    (hd : d = (start (Session.start measure store)).events past) (haccepts : d.session.surface.Accepts)
    {p : Point ℝ} {id : String} {h : Handle} {r : Rect ℝ} (hhit : d.session.hit p = .handle id h)
    (hr : d.session.rect? id = some r) (hwidth : 50 ≤ r.width) (hheight : 50 ≤ r.height) (additive : Bool)
    (moves : List (Point ℝ)) (q : Point ℝ) : d.ResizesNode p additive moves q id h r := by
  have hfaithful : d.session.Faithful := by
    rw [hd]
    exact faithful_events (.of_empty rfl) past
  obtain ⟨c, hc, -⟩ := Session.chart_of_hit hhit ⟨by simp, by simp⟩
  exact resizesNode ⟨⟨c, hc⟩, hfaithful.sound, haccepts⟩ hhit hr hwidth hheight additive moves q

section OneNode

/-- The node after a click on it, which selects it. -/
noncomputable abbrev oneNodeSelected : Desk ℝ :=
  oneNodeShown.events (Event.gesture hold false [] hold)

theorem oneNodeSelected_eq : oneNodeSelected = (start (Session.start (fun _ => ⟨0, 0⟩) Store.inMemory)).events
    (.renderText oneNodeText :: Event.gesture hold false [] hold) :=
  rfl

/-- The upper left corner of the node, and where its first handle is. -/
def corner : Point ℝ := ⟨0, 0⟩

/-- The rectangle of the node. -/
noncomputable abbrev placed : Rect ℝ := Layout.nodeRect 0 .topDown

theorem ready_oneNodeShown : oneNodeShown.session.Ready :=
  (tracked_shown Scalar.exact_real (fun _ => ⟨0, 0⟩) (by simp [Store.node?_inMemory]) ofText_oneNodeText).ready

theorem oneNodeSelected_session :
    oneNodeSelected.session = (oneNodeShown.press hold .left false).state.session := by
  have hpressed : (oneNodeShown.press hold .left false).state.session.Ready :=
    ready_oneNodeShown.edited (oneNodeShown.edited_press hold .left false)
  refine release_left_session Scalar.exact_real hpressed ?_ ?_
  · unfold press
    rw [hit_oneNodeShown, oneNodeShown, shown, start, Session.renderText, ofText_oneNodeText]
    rfl
  · unfold press
    rw [hit_oneNodeShown, oneNodeShown, shown, start, Session.renderText, ofText_oneNodeText]
    rfl

theorem oneNodeSelected_nodes :
    ∃ c n, oneNodeSelected.session.picture = .chart c ∧ c.selectedEdge = none ∧ c.nodes.toList = [("a", n)] ∧
      n.selected = true ∧ n.rect = placed := by
  have hshown : ∃ c, (oneNodeShown.press hold .left false).state.session.picture = .chart c ∧
      c.selectedEdge = none ∧ c.nodes.toList.map (fun n => (n.1, n.2.selected, n.2.rect)) =
        [("a", true, Layout.nodeRect 0 .topDown)] := by
    unfold press
    rw [hit_oneNodeShown, oneNodeShown, shown, start, Session.renderText, ofText_oneNodeText]
    exact ⟨_, rfl, rfl, rfl⟩
  obtain ⟨c, hc, hedge, hnodes⟩ := hshown
  obtain ⟨⟨id, n⟩, htoList, hitem⟩ := List.map_eq_singleton_iff.mp hnodes
  obtain ⟨rfl, hitem⟩ := Prod.mk.inj hitem
  obtain ⟨hselected, hrect⟩ := Prod.mk.inj hitem
  exact ⟨c, n, oneNodeSelected_session ▸ hc, hedge, htoList, hselected, hrect⟩

theorem hit_oneNodeSelected : oneNodeSelected.session.hit corner = .handle "a" .nw := by
  obtain ⟨c, n, hc, hedge, hnodes, hselected, hrect⟩ := oneNodeSelected_nodes
  have hselectedEdge : c.hitSelectedEdge corner = none := by
    rw [Chart.hitSelectedEdge, hedge]
    rfl
  have hhandle : c.hitHandle corner = some (.handle "a" .nw) := by
    have hreach : (0 : ℝ) ≤ Chart.handleReach :=
      add_nonneg (by norm_num [Layout.handleSize]) (Scalar.one_real ▸ zero_le_one)
    simp [Chart.hitHandle, hnodes, hselected, hrect, Scalar.nodeRect_real, Handle.all, Rect.handlePoint,
      corner, Rect.left,
      Rect.top, hreach]
  rw [Session.hit, hc]
  show (c.hitSelectedEdge corner <|> c.hitHandle corner <|> _).getD .nothing = _
  rw [hselectedEdge, hhandle]
  rfl

theorem rect?_oneNodeSelected : oneNodeSelected.session.rect? "a" = some placed := by
  obtain ⟨c, n, hc, -, hnodes, -, hrect⟩ := oneNodeSelected_nodes
  have hmem : ("a", n) ∈ c.nodes.toList := by
    rw [hnodes]
    exact List.mem_singleton_self _
  rw [Session.rect?, hc]
  show c.nodes["a"]?.map NodeItem.rect = some placed
  rw [Std.ExtTreeMap.mem_toList_iff_getElem?_eq_some.mp hmem, Option.map_some, hrect]

theorem ready_oneNodeSelected : oneNodeSelected.session.Ready :=
  ready_events ready_oneNodeShown (by simp [Event.gesture, Event.held, Event.OfPointer])

/-- Dragged by its upper left corner, the node keeps its lower right one. -/
theorem resizes_events_oneNodeSelected :
    oneNodeSelected.ResizesNode corner false [hold] aside "a" .nw placed :=
  resizes_events (fun _ => ⟨0, 0⟩) Store.inMemory oneNodeSelected_eq ready_oneNodeSelected.accepts
    hit_oneNodeSelected rect?_oneNodeSelected (by norm_num [Scalar.nodeRect_real])
    (by norm_num [Scalar.nodeRect_real]) false [hold] aside

/-- A click on a handle, without a step, does not record the node. -/
theorem not_records_click :
    ¬ ∀ (measure : Measure ℝ) (store : Store ℝ) (past : List (Event ℝ)) (d : Desk ℝ),
    d = (start (Session.start measure store)).events past → d.session.surface.Accepts →
    ∀ (p : Point ℝ) (id : String) (h : Handle) (r : Rect ℝ), d.session.hit p = .handle id h →
      d.session.rect? id = some r → 50 ≤ r.width → 50 ≤ r.height →
      ∀ (additive : Bool) (moves : List (Point ℝ)) (q : Point ℝ),
        (d.events (Event.gesture p additive moves q)).session.Records id := by
  intro hall
  have hrecords := hall (fun _ => ⟨0, 0⟩) Store.inMemory _ _ oneNodeSelected_eq
    ready_oneNodeSelected.accepts corner "a" .nw placed hit_oneNodeSelected rect?_oneNodeSelected
    (by norm_num [Scalar.nodeRect_real]) (by norm_num [Scalar.nodeRect_real]) false [] corner
  have hclick :=
    resizesNode ready_oneNodeSelected hit_oneNodeSelected rect?_oneNodeSelected (by norm_num [Scalar.nodeRect_real])
    (by norm_num [Scalar.nodeRect_real]) false [] corner
  have hstore : oneNodeSelected.session.store.node? "a" = none := by
    rw [oneNodeSelected_session]
    unfold press
    rw [hit_oneNodeShown, oneNodeShown, shown, start, Session.renderText, ofText_oneNodeText]
    rfl
  obtain ⟨r', hr', -⟩ := hclick.released
  rw [Session.Records, hclick.releasedQuiet rfl rfl, hr', hstore] at hrecords
  cases hrecords

end OneNode

end Desk

end LiveDiagram
