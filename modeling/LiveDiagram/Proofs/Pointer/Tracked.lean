import LiveDiagram.Proofs.Pointer.Dragging

namespace LiveDiagram

variable {α : Type}

namespace Drag

theorem undo_of_start?_eq_none {drag : Drag α} {id : String} (h : drag.start? id = none) (r : Rect α) :
    drag.undo id r = r := by
  rw [undo, h, Option.elim_none]

/-- Where a dragged node is does not matter to where it goes back. -/
theorem undo_dragged (drag : Drag α) (id : String) (r : Rect α) (corner : Point α → Point α) :
    drag.undo id ((drag.start? id).elim r fun q => r.at (corner q)) = drag.undo id r := by
  unfold undo
  cases drag.start? id <;> rfl

end Drag

variable [Scalar α]

namespace Rect

/-- The rectangle has a width and a height. -/
def Sized (r : Rect α) : Prop :=
  0 < r.width ∧ 0 < r.height

/-- No axis loses its length in a resize. -/
theorem resizeAxis_pos (hexact : Scalar.Exact α) (far near : Bool) (start : α) {length : α} (hlength : 0 < length)
    (step : α) : 0 < (resizeAxis far near start length step Layout.minNodeSize).2 := by
  have hleast : (0 : α) < Layout.minNodeSize := hexact.ofNat_pos 49
  unfold resizeAxis Scalar.greater
  split
  · dsimp only
    split
    · exact hexact.lt_trans hleast ‹_›
    · exact hleast
  · split
    · rename_i hroom
      exact hexact.lt_of_lt_of_le hleast hroom.2
    · exact hlength

theorem Sized.resize (hexact : Scalar.Exact α) {r : Rect α} (hr : r.Sized) (h : Handle) (step : Point α) :
    (r.resize h step Layout.minNodeSize).Sized :=
  ⟨resizeAxis_pos hexact h.isEast h.isWest r.x hr.1 step.x,
    resizeAxis_pos hexact h.isSouth h.isNorth r.y hr.2 step.y⟩

end Rect

namespace ChartStage

/-- What is known of a chart during a drag, over a store that was another one at
    first. During the drag the nodes are away from where the store records them;
    if the drag was undone, each node would stand where the store records it, or
    else at its first place. -/
structure Tracks (before : Store α) (first : String → Option (Rect α)) (drag : Drag α) (s : ChartStage α) :
    Prop where
  present : ∀ id, (s.picture.rect? id).isSome = (first id).isSome
  sized : ∀ id r, s.picture.rect? id = some r → r.Sized
  kept : ∀ id r, s.picture.rect? id = some r → (s.store.node? id).or (first id) = some (drag.undo id r)
  /-- What is not recorded now was not recorded at first. -/
  unrecorded : ∀ id, s.store.node? id = none → before.node? id = none

namespace Tracks

variable {before : Store α} {first : String → Option (Rect α)} {drag : Drag α} {s t : ChartStage α}

/-- What keeps the nodes keeps what is known of them. -/
theorem keepsNodes (h : Tracks before first drag s) (hkeeps : KeepsNodes s t) : Tracks before first drag t where
  present id := by
    rw [hkeeps.rect?]
    exact h.present id
  sized id r hr := h.sized id r (hkeeps.rect? ▸ hr)
  kept id r hr := by
    rw [hkeeps.node?]
    exact h.kept id r (hkeeps.rect? ▸ hr)
  unrecorded id hid := h.unrecorded id (hkeeps.node? ▸ hid)

/-- Another drag takes the nodes back to the same places. -/
theorem withDrag (h : Tracks before first drag s) {drag' : Drag α}
    (hdrag : ∀ id r, s.picture.rect? id = some r → drag'.undo id r = drag.undo id r) :
    Tracks before first drag' s where
  present := h.present
  sized := h.sized
  kept id r hr := (h.kept id r hr).trans (congrArg some (hdrag id r hr).symm)
  unrecorded := h.unrecorded

end Tracks

/-- The places of the nodes after those that are dragged were moved. -/
theorem rect?_forEach_moveNode (hs : s.picture.Linked ∧ s.picture.Complete) (haccepts : s.surface.Accepts)
    (starts : List (String × Point α)) (corner : Point α → Point α) (id : String) :
    (Outcome.forEach starts (fun x t => moveNode t x.1 (corner x.2)) s).state.picture.rect? id =
      (s.picture.rect? id).map fun r => ((Drag.nodes starts).start? id).elim r fun q => r.at (corner q) := by
  rw [(forEach_moveNode hs haccepts starts corner).2.2 id, Drag.start?]
  cases starts.reverse.find? fun x => x.1 == id <;> rfl

namespace Tracks

variable {before : Store α} {first : String → Option (Rect α)} {s : ChartStage α}

/-- Moving the nodes that are dragged keeps what is known, as undoing the drag
    takes them back to the same places. -/
theorem moveNodes {starts : List (String × Point α)} (h : Tracks before first (.nodes starts) s)
    (hs : s.picture.Linked ∧ s.picture.Complete) (haccepts : s.surface.Accepts) (corner : Point α → Point α) :
    Tracks before first (.nodes starts)
      (Outcome.forEach starts (fun x t => moveNode t x.1 (corner x.2)) s).state := by
  have hrect := rect?_forEach_moveNode hs haccepts starts corner
  have hstore := (forEach_moveNode hs haccepts starts corner).2.1
  refine ⟨fun id => ?_, fun id r hr => ?_, fun id r hr => ?_, fun id hid => h.unrecorded id (hstore ▸ hid)⟩
  · rw [hrect, Option.isSome_map]
    exact h.present id
  · obtain ⟨q, hq, rfl⟩ := Option.map_eq_some_iff.mp ((hrect id).symm.trans hr)
    cases (Drag.nodes starts).start? id <;> exact h.sized id q hq
  · obtain ⟨q, hq, rfl⟩ := Option.map_eq_some_iff.mp ((hrect id).symm.trans hr)
    rw [hstore, Drag.undo_dragged]
    exact h.kept id q hq

/-- A node that is resized is recorded at once, so that there is nothing to take
    back. -/
theorem resizeNode (hexact : Scalar.Exact α) (h : Tracks before first .handle s) (hs : s.picture.Complete)
    (haccepts : s.surface.Accepts) (id : String) (handle : Handle) (step : Point α) :
    Tracks before first .handle (s.resizeNode id handle step).state := by
  have hrect := fun other => s.resizeNode_rect? id other handle step
  have hnode := fun other => resizeNode_node? hs haccepts id other handle step
  refine ⟨fun other => ?_, fun other r hr => ?_, fun other r hr => ?_, fun other hother => ?_⟩
  · rw [hrect]
    split
    · rename_i heq
      rw [Option.isSome_map, heq]
      exact h.present other
    · exact h.present other
  · rw [hrect] at hr
    split at hr
    · obtain ⟨q, hq, rfl⟩ := Option.map_eq_some_iff.mp hr
      exact (h.sized id q hq).resize hexact handle step
    · exact h.sized other r hr
  · rw [hnode]
    split
    · rename_i heq
      subst heq
      rw [hr]
      rfl
    · rename_i hne
      rw [hrect, if_neg hne] at hr
      exact h.kept other r hr
  · rw [hnode] at hother
    split at hother
    · rename_i heq
      exact h.unrecorded other (heq ▸ (Option.or_eq_none_iff.mp hother).2)
    · exact h.unrecorded other hother

/-- Once the dragged nodes are recorded, they belong where they are. -/
theorem commitNodes {starts : List (String × Point α)} (h : Tracks before first (.nodes starts) s) :
    Tracks before first .nothing (starts.foldl (fun t x => commitNode t x.1) s) := by
  obtain ⟨hpicture, hnode⟩ := s.foldl_commitNode starts
  refine ⟨fun id => ?_, fun id r hr => ?_, fun id r hr => ?_, fun id hid => ?_⟩
  · rw [hpicture]
    exact h.present id
  · exact h.sized id r (hpicture ▸ hr)
  · rw [hpicture] at hr
    rw [hnode]
    split
    · rw [hr]
      rfl
    · rename_i hmem
      rw [h.kept id r hr, Drag.undo_of_start?_eq_none (Drag.start?_eq_none.mpr hmem)]
      rfl
  · rw [hnode] at hid
    split at hid
    · exact h.unrecorded id (Option.or_eq_none_iff.mp hid).2
    · exact h.unrecorded id hid

end Tracks

end ChartStage

namespace Desk

open ChartStage

/-- A desk that is ready, with what is known of its chart during the drag at
    hand. -/
structure Tracked (before : Store α) (first : String → Option (Rect α)) (d : Desk α) : Prop where
  ready : d.session.Ready
  tracks : d.stage.Tracks before first d.pointer.drag

variable {before : Store α} {first : String → Option (Rect α)} {d : Desk α}

/-- When no node is away from where the drag began, the drag can be given up. -/
theorem Tracked.drop (h : d.Tracked before first) (hatStart : d.AtStart) :
    d.stage.Tracks before first .nothing := by
  refine h.tracks.withDrag fun id r hr => ?_
  rw [Session.chartStage_rect?] at hr
  exact (hatStart id r hr).symm

omit [Scalar α] in
/-- If the desk says that nothing is dragged, nothing is. -/
theorem drag_eq_nothing {d : Desk α} (hd : d.isDragging = false) : d.pointer.drag = .nothing := by
  unfold isDragging at hd
  split at hd
  · assumption
  · simp at hd

theorem Tracked.press_right (h : d.Tracked before first) (p : Point α) (additive : Bool) :
    (d.press p .right additive).state.Tracked before first := by
  obtain ⟨hkeeps, hpointer⟩ := Desk.press_right h.ready p additive
  refine ⟨h.ready.edited (d.edited_press p .right additive), ?_⟩
  rw [hpointer]
  exact h.tracks.keepsNodes hkeeps

/-- A left press keeps what is known, if nothing was dragged before it: the drag
    that begins has its nodes at its start. -/
theorem Tracked.press_left (h : d.Tracked before first) (hidle : d.pointer.drag = .nothing) (p : Point α)
    (additive : Bool) : (d.press p .left additive).state.Tracked before first := by
  obtain ⟨hkeeps, hatStart⟩ := Desk.press_left h.ready hidle p additive
  refine ⟨h.ready.edited (d.edited_press p .left additive), ?_⟩
  refine ((h.drop (atStart_of_nothing hidle)).keepsNodes hkeeps).withDrag fun id r hr => ?_
  rw [Session.chartStage_rect?] at hr
  exact hatStart id r hr

/-- A drag to another point keeps what is known, whatever is dragged. -/
theorem Tracked.dragTo (hexact : Scalar.Exact α) (h : d.Tracked before first) (p : Point α) :
    (d.dragTo p).state.Tracked before first := by
  have hcomplete := h.ready.sound.chartStage
  have haccepts := Session.accepts_chartStage h.ready.accepts
  have htracks := h.tracks
  refine ⟨h.ready.edited (d.edited_dragTo p), ?_⟩
  rw [dragTo_pointer]
  cases hdrag : d.pointer.drag with
  | nothing =>
    rw [hdrag] at htracks
    rw [Desk.dragTo, hdrag]
    exact htracks
  | nodes starts =>
    rw [hdrag] at htracks
    rw [dragTo_of_nodes hdrag, stage_onChart h.ready]
    exact htracks.moveNodes hcomplete haccepts (d.dragged p)
  | handle =>
    rw [hdrag] at htracks
    rw [Desk.dragTo, hdrag]
    dsimp only
    rw [stage_onChart h.ready]
    exact htracks.resizeNode hexact hcomplete.2 haccepts _ _ _
  | edgePoint =>
    rw [hdrag] at htracks
    rw [Desk.dragTo, hdrag]
    exact htracks.keepsNodes (onChart_keepsNodes h.ready fun t ht => dragEdgePoint_keepsNodes ht _ p _)
  | participant startX =>
    rw [hdrag] at htracks
    rw [Desk.dragTo, hdrag]
    dsimp only
    rw [onSession, h.ready.onTimeline]
    exact htracks

/-- Back at the point of the press, the dragged nodes are back where the drag
    began. -/
theorem atStart_dragTo_pressed (hexact : Scalar.Exact α) (hd : d.session.Ready) :
    (d.dragTo d.pointer.pressed).state.AtStart := by
  intro id r hr
  rw [dragTo_pointer]
  cases hdrag : d.pointer.drag with
  | nodes starts =>
    have hback (corner : Point α) : d.dragged d.pointer.pressed corner = corner :=
      congrArg₂ Point.mk (hexact.add_sub_self _ _) (hexact.add_sub_self _ _)
    have hmoved := rect?_forEach_moveNode hd.sound.chartStage (Session.accepts_chartStage hd.accepts) starts
      (d.dragged d.pointer.pressed) id
    rw [← stage_onChart hd, ← dragTo_of_nodes hdrag, Session.chartStage_rect?, hr] at hmoved
    obtain ⟨q, -, rfl⟩ := Option.map_eq_some_iff.mp hmoved.symm
    rw [Drag.undo_dragged, Drag.undo]
    simp only [hback]
  | nothing | handle | edgePoint | participant => rfl

theorem Tracked.move (hexact : Scalar.Exact α) (h : d.Tracked before first) (p : Point α) :
    (d.move p).state.Tracked before first := by
  obtain ⟨hready, htracks⟩ := h.dragTo hexact p
  rw [dragTo_pointer] at htracks
  rw [move_eq h.ready]
  exact ⟨hready, htracks⟩

/-- A move back to the point of the press takes the dragged nodes back where the
    drag began. -/
theorem atStart_move_pressed (hexact : Scalar.Exact α) (hd : d.session.Ready) :
    (d.move d.pointer.pressed).state.AtStart := by
  have hatStart := atStart_dragTo_pressed hexact hd
  rw [move_eq hd]
  intro id r hr
  have hundo := hatStart id r hr
  rw [dragTo_pointer] at hundo
  exact hundo

/-- A drag that is committed elsewhere than at the last press leaves the nodes
    where they are recorded. So does one that is committed there, if the nodes
    are back at the start. -/
theorem Tracked.commitDrag (hexact : Scalar.Exact α) (h : d.Tracked before first) {p : Point α}
    (hp : p = d.pointer.pressed → d.AtStart) : (d.commitDrag p).stage.Tracks before first .nothing := by
  cases hdrag : d.pointer.drag with
  | nodes starts =>
    have hcommit : d.commitDrag p = if p.same d.pointer.pressed then d else
        (d.onChart fun s => .done (starts.foldl (fun s x => commitNode s x.1) s)).state := by
      rw [Desk.commitDrag, hdrag]
    rw [hcommit]
    split
    · rename_i hsame
      exact h.drop (hp ((Point.same_iff hexact).mp hsame))
    · have htracks := h.tracks
      rw [hdrag] at htracks
      rw [stage_onChart h.ready]
      exact htracks.commitNodes
  | participant startX =>
    have hdropped := h.drop fun id r _ => by rw [hdrag]; rfl
    rw [Desk.commitDrag, hdrag]
    dsimp only
    rw [onSession, h.ready.onTimeline]
    exact hdropped
  | nothing | handle | edgePoint =>
    have hdropped := h.drop fun id r _ => by rw [hdrag]; rfl
    rw [Desk.commitDrag, hdrag]
    exact hdropped

/-- Whether the release of the left button at a point moves what is dragged once
    more. -/
def movesOn (d : Desk α) (p : Point α) : Bool :=
  d.isDragging && !p.same d.pointer.last

/-- The desk at the end of a drag, before it is committed. -/
def dragEnd (d : Desk α) (p : Point α) : Desk α :=
  if d.movesOn p then (d.move p).state else d

/-- A left release that nothing stops takes the drag to its end, commits it, and
    leaves nothing dragged. -/
theorem release_left_of_unstopped {p : Point α} (hp : (d.dragTo p).refusal = none) :
    (d.release p .left).state = { (d.dragEnd p).commitDrag p with
      pointer := { ((d.dragEnd p).commitDrag p).pointer with drag := .nothing, active := .nothing } } := by
  have hlast : (if d.movesOn p then d.move p else .done d) = .done (d.dragEnd p) := by
    unfold dragEnd
    split
    · rw [move_of_unstopped hp]
      rfl
    · rfl
  rw [release]
  show ((if d.movesOn p then d.move p else .done d).andThen _).state = _
  rw [hlast]
  rfl

/-- On a surface that refuses nothing a left release takes the drag to its end
    and commits it. -/
theorem release_left_state (hd : d.session.Ready) (p : Point α) :
    (d.release p .left).state = { (d.dragEnd p).commitDrag p with
      pointer := { ((d.dragEnd p).commitDrag p).pointer with drag := .nothing, active := .nothing } } :=
  release_left_of_unstopped (dragTo_refusal hd p)

theorem isDragging_release_left (hd : d.session.Ready) (p : Point α) :
    (d.release p .left).state.isDragging = false := by
  rw [release_left_state hd]
  rfl

/-- The left release ends the drag with every node where it is recorded, unless
    it is where the last press and the last move were and nodes are away from
    the start of the drag. -/
theorem Tracked.release_left (hexact : Scalar.Exact α) (h : d.Tracked before first) {p : Point α}
    (hp : p = d.pointer.last → p = d.pointer.pressed → d.AtStart) :
    (d.release p .left).state.Tracked before first := by
  refine ⟨h.ready.edited (d.edited_release p .left), ?_⟩
  rw [release_left_state h.ready]
  refine Tracked.commitDrag hexact (d := d.dragEnd p) ?_ fun hpressed => ?_
  · unfold dragEnd
    split
    · exact h.move hexact p
    · exact h
  · unfold dragEnd at hpressed ⊢
    split at hpressed
    · rw [if_pos ‹_›]
      rw [move_eq h.ready] at hpressed
      exact hpressed ▸ atStart_move_pressed hexact h.ready
    · rename_i hstays
      rw [if_neg hstays]
      by_cases hdragging : d.isDragging
      · have hsame : p.same d.pointer.last = true := by simpa [movesOn, hdragging] using hstays
        exact hp ((Point.same_iff hexact).mp hsame) hpressed
      · exact atStart_of_nothing (drag_eq_nothing (Bool.eq_false_iff.mpr hdragging))

/-- A left release at the point of the last press, where the pointer is already,
    changes nothing but the drag. -/
theorem release_left_session (hexact : Scalar.Exact α) (hd : d.session.Ready) {p : Point α}
    (hlast : d.pointer.last = p) (hpressed : d.pointer.pressed = p) :
    (d.release p .left).state.session = d.session := by
  have hsame : p.same p = true := (Point.same_iff hexact).mpr rfl
  have hend : d.dragEnd p = d := by
    rw [dragEnd, movesOn, hlast, hsame, Bool.not_true, Bool.and_false, if_neg Bool.false_ne_true]
  rw [release_left_state hd, hend]
  show (d.commitDrag p).session = d.session
  unfold commitDrag
  split
  · rw [hpressed, if_pos hsame]
  · rw [onSession, hd.onTimeline]
    rfl
  · rfl

end Desk

end LiveDiagram
