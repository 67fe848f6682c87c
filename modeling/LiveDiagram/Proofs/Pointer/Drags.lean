import LiveDiagram.Proofs.Pointer.ControlDrag
import LiveDiagram.Proofs.Pointer.GroupDrag
import LiveDiagram.Proofs.Pointer.ParticipantDrag

namespace LiveDiagram

variable {α : Type}

variable [Scalar α]

namespace Desk

/-- The selected nodes after a left press at a point. -/
def selectedBy (d : Desk α) (p : Point α) (additive : Bool) : List String :=
  (d.press p .left additive).state.session.picture.chartOrEmpty.selectedNodes

section Statements

variable (d : Desk α) (p : Point α) (additive : Bool) (moves : List (Point α)) (q : Point α)

/-- The gesture drags the selected nodes, one of which is the pressed one. -/
structure DragsNodes [YamlReader] (id : String) : Prop where
  pressed : id ∈ d.selectedBy p additive
  nodup : (d.selectedBy p additive).Nodup
  /-- Each of them is moved by the way from the press to the release, and no
      other node. -/
  rect? : ∀ other, (d.events (Event.gesture p additive moves q)).session.rect? other =
    (d.session.rect? other).map fun r => if other ∈ d.selectedBy p additive then r.shift (q - p) else r
  /-- Nothing is saved before the release. -/
  quiet : (d.events (Event.held p additive moves)).session.store = d.session.store
  /-- Nothing is saved at all if the release is where the press was. -/
  unsaved : q = p → (d.events (Event.gesture p additive moves q)).session.store = d.session.store
  /-- Otherwise each of them is recorded where it is, one after the other. -/
  saved : q ≠ p → ∃ rects : List (String × Rect α), rects.map Prod.fst = d.selectedBy p additive ∧
    (∀ x ∈ rects, (d.events (Event.gesture p additive moves q)).session.rect? x.1 = some x.2) ∧
    (d.events (Event.gesture p additive moves q)).session.store =
      rects.foldl (fun store x => store.setNode x.1 x.2) d.session.store
  saves : q ≠ p → ∀ m, d.session.store.backend = .memory m →
    ∃ m', (d.events (Event.gesture p additive moves q)).session.store.backend = .memory m' ∧
      m'.saves = m.saves + (d.selectedBy p additive).length

/-- The gesture drags the pressed participant. -/
structure DragsParticipant [YamlReader] (id : String) : Prop where
  /-- Its left side is moved by the way from the press to the release, and that
      of no other participant. -/
  left? : ∃ x, d.session.left? id = some x ∧
    ∀ other, (d.events (Event.gesture p additive moves q)).session.left? other =
      if id = other then some (x + (q.x - p.x)) else d.session.left? other
  /-- Nothing is saved before the release. -/
  quiet : (d.events (Event.held p additive moves)).session.store = d.session.store
  /-- At the release the participant is recorded where it is. -/
  saved : ∃ item, (d.events (Event.gesture p additive moves q)).session.picture.timelineOrEmpty.participants[id]? =
      some item ∧
    (d.events (Event.gesture p additive moves q)).session.store = d.session.store.setNode id item.header
  saves : ∀ m, d.session.store.backend = .memory m →
    ∃ m', (d.events (Event.gesture p additive moves q)).session.store.backend = .memory m' ∧
      m'.saves = m.saves + 1

/-- The gesture drags the pressed control point of an edge. -/
structure DragsControl [YamlReader] (key : String) (index : Int) : Prop where
  /-- It is moved by the way from the press to the release. -/
  handle? : ∃ h, d.session.handle? key index = some h ∧
    (d.events (Event.gesture p additive moves q)).session.handle? key index = some (h + (q - p))
  /-- The other control point stays, on the chart and in the store. -/
  otherControl? :
    (d.events (Event.gesture p additive moves q)).session.picture.chartOrEmpty.otherControl? key index =
    d.session.picture.chartOrEmpty.otherControl? key index
  recorded : (d.events (Event.gesture p additive moves q)).session.recordedControl? key index =
    d.session.recordedControl? key index

end Statements

section Gestures

variable {d : Desk α} {p : Point α} {additive : Bool}

/-- A gesture on a node drags the selected nodes by the way from the press to
    the release, whatever the moves in between were. With inexact scalars a node
    could come to stand beside its goal, and on a surface that refuses one of
    the nodes the others stay behind. -/
theorem dragsNodes [YamlReader] (hexact : Scalar.Exact α) (hfaithful : d.session.Faithful)
    (haccepts : d.session.surface.Accepts)
    {id : String} (hhit : d.session.hit p = .node id) (moves : List (Point α)) (q : Point α) :
    d.DragsNodes p additive moves q id := by
  obtain ⟨chart, hchart, -⟩ := Session.chart_of_hit hhit ⟨by simp, by simp⟩
  have hready : d.session.Ready := ⟨⟨chart, hchart⟩, hfaithful.sound, haccepts⟩
  obtain ⟨session, c, hpress, hc, hready', hstore, hrect, hid⟩ := press_node hready hhit additive
  have hselected : d.selectedBy p additive = c.selectedNodes := by
    rw [selectedBy, hpress, hc]
    rfl
  have hstart : session.rect? = c.rect? := by
    funext other
    rw [Session.rect?, hc]
    rfl
  let held : Pointer α := ⟨.nodes (selectedCorners c), .node id, p, p⟩
  have hdrag : held.drag = .nodes (selectedCorners c) := rfl
  obtain ⟨⟨last, hheld⟩, session', hreleased, hcommit⟩ := (carries_nodes c session.store hdrag).gesture
    hexact hpress (follows_start hexact hready' hstart p) (by simp [held]) moves q
  obtain ⟨hplaces, hunsaved, hsaved⟩ := hreleased.commit hexact hdrag
  rw [← hcommit] at hplaces hunsaved hsaved
  refine ⟨hselected ▸ hid, hselected ▸ c.nodup_selectedNodes, fun other => ?_, hheld.store_eq.trans hstore,
    fun hq => (hunsaved hq).trans hstore, fun hq => ?_, fun hq m hm => ?_⟩
  · rw [hplaces, hreleased.rect? other, hrect, hselected]
  · obtain ⟨rects, hids, hrects, hstore'⟩ := hsaved hq
    exact ⟨rects, hids.trans hselected.symm, fun x hx => hplaces ▸ hrects x hx, hstore ▸ hstore'⟩
  · obtain ⟨rects, hids, -, hstore'⟩ := hsaved hq
    have hlength : rects.length = (d.selectedBy p additive).length := by
      rw [hselected, ← hids, List.length_map]
    rw [hstore', hstore, ← hlength]
    exact Store.saves_foldl_setNode rects hm

/-- A gesture on a participant drags it, and only sideways. -/
theorem dragsParticipant [YamlReader] (hexact : Scalar.Exact α) (haccepts : d.session.surface.Accepts) {id : String}
    (hhit : d.session.hit p = .participant id) (moves : List (Point α)) (q : Point α) :
    d.DragsParticipant p additive moves q id := by
  obtain ⟨t, x, ht, hx, hpress⟩ := press_participant hhit additive
  have hleft : d.session.left? = t.left? := Session.left?_of_timeline ht
  let held : Pointer α := ⟨.participant x, .participant id, p, p⟩
  have hdrag : held.drag = .participant x := rfl
  have hactive : held.active = .participant id := rfl
  obtain ⟨⟨last, hheld⟩, session', hreleased, hcommit⟩ :=
    (carries_participant t d.session.store hdrag hactive).gesture
    hexact hpress (slides_start hexact ht haccepts hx p) (by simp [held]) moves q
  obtain ⟨hpicture, item, hitem, hstore⟩ := hreleased.commit hdrag hactive
  rw [← hcommit] at hpicture hstore
  refine ⟨⟨x, hleft ▸ hx, fun other => ?_⟩, hheld.store_eq, ⟨item, hpicture ▸ hitem, hstore⟩,
    fun m hm => ?_⟩
  · have hsame : (d.events (Event.gesture p additive moves q)).session.left? other = session'.left? other := by
      rw [Session.left?, hpicture]
      rfl
    rw [hleft, hsame]
    exact hreleased.left? other
  · rw [hstore]
    exact d.session.store.saves_setNode hm id item.header

/-- A gesture on a control point drags it and leaves the other one alone. The
    steps of the pointer are added up here, which is why they have to add up
    exactly. -/
theorem dragsControl [YamlReader] (hexact : Scalar.ExactSteps α) (hfaithful : d.session.Faithful)
    (haccepts : d.session.surface.Accepts) {key : String} {index : Int}
    (hhit : d.session.hit p = .edgeControl key index) (moves : List (Point α)) (q : Point α) :
    d.DragsControl p additive moves q key index := by
  obtain ⟨c, h, hc, hh, hpress⟩ := press_control hhit additive
  have hchart : d.session.picture.chartOrEmpty = c := by
    rw [hc]
    rfl
  have hhandle : d.session.handle? key index = some h := by
    rw [Session.handle?, hchart]
    exact hh
  let held : Pointer α := ⟨.edgePoint, .edgeControl key index, p, p⟩
  have hdrag : held.drag = .edgePoint := rfl
  have hactive : held.active = .edgeControl key index := rfl
  obtain ⟨-, session', hreleased, hcommit⟩ := (carries_control hexact c h hdrag hactive).gesture
    hexact.toExact hpress (bends_start hexact.toExact hc hfaithful haccepts hh p) (by simp [held]) moves q
  have hsession : (d.events (Event.gesture p additive moves q)).session = session' := hcommit
  rw [← hsession] at hreleased
  have hother := hreleased.otherControl?
  rw [← hchart] at hother
  refine ⟨⟨h, hhandle, hreleased.handle?⟩, hother, ?_⟩
  rw [hreleased.faithful.recordedControl? hreleased.handle?, hother, hfaithful.recordedControl? hhandle]

end Gestures

/-- However the desk came about, a gesture on nodes, on a participant or on a
    control point takes them by the way from the press to the release. Nodes and
    participants are recorded at the release and not before. The surface may
    have refused anything in the past, but it must refuse nothing during the
    gesture. -/
theorem drags_events [YamlReader] (hexact : Scalar.ExactSteps α) (measure : Measure α) (store : Store α)
    {past : List (Event α)}
    {d : Desk α} (hd : d = (start (Session.start measure store)).events past) (haccepts : d.session.surface.Accepts)
    (p : Point α) (additive : Bool) (moves : List (Point α)) (q : Point α) :
    (∀ id, d.session.hit p = .node id → d.DragsNodes p additive moves q id) ∧
    (∀ id, d.session.hit p = .participant id → d.DragsParticipant p additive moves q id) ∧
    ∀ key index, d.session.hit p = .edgeControl key index → d.DragsControl p additive moves q key index := by
  have hfaithful : d.session.Faithful := by
    rw [hd]
    exact faithful_events (.of_empty rfl) past
  refine ⟨fun id hhit => ?_, fun id hhit => ?_, fun key index hhit => ?_⟩
  · exact dragsNodes hexact.toExact hfaithful haccepts hhit moves q
  · exact dragsParticipant hexact.toExact haccepts hhit moves q
  · exact dragsControl hexact hfaithful haccepts hhit moves q

/-- A point far from both. -/
def detour : Point α := ⟨500, 7⟩

/-- Where the node is if it is dragged from the one point to the other. -/
def dropped : Rect α := ⟨100, 50, 160, 60⟩

/-- A node ends where the pointer leaves it, after a detour, and is saved
    once. -/
theorem drags_events_oneNodeShown :
    (oneNodeShown.events (Event.gesture hold false [detour] aside)).session.rect? "a" = some dropped ∧
      ∃ m, (oneNodeShown.events (Event.gesture hold false [detour] aside)).session.store.backend = .memory m ∧
        m.saves = 1 := by
  have hshown : oneNodeShown = (start (Session.start (fun _ => ⟨0, 0⟩) Store.inMemory)).events
      [.renderText oneNodeText] := rfl
  have haccepts : oneNodeShown.session.surface.Accepts := by
    rw [oneNodeShown, shown, start, Session.renderText, ofText_oneNodeText]
    rfl
  have hdrags := (drags_events Scalar.exactSteps_real (fun _ => ⟨0, 0⟩) Store.inMemory hshown haccepts hold false
    [detour] aside).1 "a" hit_oneNodeShown
  have hselected : oneNodeShown.selectedBy hold false = ["a"] := by
    unfold selectedBy press
    rw [hit_oneNodeShown, oneNodeShown, shown, start, Session.renderText, ofText_oneNodeText]
    rfl
  obtain ⟨m, hm, hsaves⟩ : ∃ m, oneNodeShown.session.store.backend = .memory m ∧ m.saves = 0 := by
    rw [oneNodeShown, shown, start, Session.renderText, ofText_oneNodeText]
    exact ⟨_, rfl, rfl⟩
  have hrect : oneNodeShown.session.rect? "a" = some ⟨0, 0, 160, 60⟩ := by
    rw [rect?_shown (fun _ => ⟨0, 0⟩) ofText_oneNodeText, if_pos (by decide), Store.node?_inMemory]
    simp [Layout.nodeRect, oneNode, Flowchart.firstIndex, Direction.isHorizontal, Layout.nodesPerRow,
      Layout.nodeWidth, Layout.nodeHeight]
  have hx : (aside - hold : Point ℝ).x = 100 := by
    show (180 : ℝ) - 80 = 100
    norm_num
  have hy : (aside - hold : Point ℝ).y = 50 := by
    show (80 : ℝ) - 30 = 50
    norm_num
  have haway : (aside : Point ℝ) ≠ hold := fun heq => by
    have hzero : (aside - hold : Point ℝ).x = 0 := by
      rw [heq]
      exact sub_self _
    norm_num [hx] at hzero
  constructor
  · rw [hdrags.rect?, hrect, hselected, Option.map_some, if_pos (List.mem_singleton_self "a")]
    simp [Rect.shift, Rect.at, hx, hy, dropped]
  · obtain ⟨m', hm', hsaves'⟩ := hdrags.saves haway m hm
    refine ⟨m', hm', ?_⟩
    rw [hsaves', hsaves, hselected]
    rfl

end Desk

end LiveDiagram
