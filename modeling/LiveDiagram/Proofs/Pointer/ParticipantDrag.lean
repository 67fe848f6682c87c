import LiveDiagram.Proofs.Pointer.Gesture
import LiveDiagram.Proofs.Pointer.Hits
import LiveDiagram.Proofs.Session.Writes
import LiveDiagram.Proofs.Timeline.Following

namespace LiveDiagram

variable {α : Type}

/-- The left side of the participant with that id. -/
def Timeline.left? (t : Timeline α) (id : String) : Option α :=
  t.participants[id]?.map ParticipantItem.x

/-- A participant that is put is seen at its own id only. -/
theorem Timeline.setParticipant_left? (t : Timeline α) (id other : String) (p : ParticipantItem α) :
    (t.setParticipant id p).left? other = if id = other then some p.x else t.left? other := by
  rw [left?, setParticipant, Std.ExtTreeMap.getElem?_insert]
  by_cases h : id = other
  · simp [h]
  · simp [h, left?]

namespace TimelineStage

/-- The surface refuses nothing, and the participants are these. Drawing keeps
    it so. -/
structure Stands (participants : Std.ExtTreeMap String (ParticipantItem α)) (s : TimelineStage α) : Prop where
  accepts : s.surface.Accepts
  participants_eq : s.picture.participants = participants

namespace Stands

variable {participants : Std.ExtTreeMap String (ParticipantItem α)} {s : TimelineStage α}

theorem draw (h : Stands participants s) (marks : List (Mark α)) :
    (s.draw marks).refusal = none ∧ Stands participants (s.draw marks).state :=
  ⟨h.accepts.draw_refusal marks, ((Stage.SameSetup.refl s).draw marks).accepts h.accepts,
    h.participants_eq⟩

variable [Scalar α]

theorem drawParticipant (h : Stands participants s) (id : String) :
    (s.drawParticipant id).refusal = none ∧ Stands participants (s.drawParticipant id).state := by
  unfold TimelineStage.drawParticipant
  split
  · exact h.draw _
  · exact ⟨rfl, h⟩

theorem drawMessage (h : Stands participants s) (key : String) :
    (s.drawMessage key).refusal = none ∧ Stands participants (s.drawMessage key).state := by
  unfold TimelineStage.drawMessage
  split
  · exact h.draw _
  · exact ⟨rfl, h⟩

/-- A note is drawn, and no participant changes. -/
theorem drawNote (h : Stands participants s) (key : String) :
    (s.drawNote key).refusal = none ∧ Stands participants (s.drawNote key).state := by
  cases hn : s.picture.notes[key]? with
  | none =>
    unfold TimelineStage.drawNote
    rw [hn]
    exact ⟨rfl, h⟩
  | some n =>
    rw [drawNote_of_getElem? hn]
    refine draw ?_ _
    exact ⟨h.accepts, h.participants_eq⟩

/-- The messages and the notes of a participant follow it, and no participant
    changes. -/
theorem updateDependents (h : Stands participants s) (id : String) :
    (s.updateDependents id).refusal = none ∧ Stands participants (s.updateDependents id).state := by
  unfold TimelineStage.updateDependents
  split
  · exact ⟨rfl, h⟩
  · rename_i p _
    refine Outcome.andThen_unstopped (P := Stands participants)
      (Outcome.andThen_unstopped (P := Stands participants) ?_ fun t ht => ?_) fun t ht => ht.draw _
    · exact Outcome.forEach_unstopped (fun key _ ht => ht.drawMessage key) h
    · exact Outcome.forEach_unstopped (fun key _ hu => hu.drawNote key) ht

end Stands

/-- Nothing stops the move of a participant, and it takes the participant to
    that left side. The others stay. -/
theorem moveParticipant_left? [Scalar α] {s : TimelineStage α} (haccepts : s.surface.Accepts)
    (id : String) (x : α) :
    (s.moveParticipant id x).refusal = none ∧ ∀ other, (s.moveParticipant id x).state.picture.left? other =
      if id = other then (s.picture.left? id).map fun _ => x else s.picture.left? other := by
  unfold moveParticipant
  cases hp : s.picture.participants[id]? with
  | none =>
    refine ⟨rfl, fun other => ?_⟩
    by_cases h : id = other
    · rw [if_pos h, ← h, Timeline.left?, Timeline.left?, Outcome.done_state, hp]
      rfl
    · rw [if_neg h]
      rfl
  | some p =>
    let moved : TimelineStage α := s.set (s.picture.setParticipant id { p with x })
    have hmoved : Stands moved.picture.participants moved := ⟨haccepts, rfl⟩
    obtain ⟨hrefusal, hstands⟩ := Outcome.andThen_unstopped (hmoved.drawParticipant id)
      fun t ht => ht.updateDependents id
    refine ⟨hrefusal, fun other => ?_⟩
    have hleft := s.picture.setParticipant_left? id other { p with x }
    dsimp only at hleft ⊢
    rw [Timeline.left?, hstands.participants_eq]
    rw [Timeline.left?, hp, Option.map_some, Option.map_some]
    exact hleft

end TimelineStage

namespace Session

/-- The left side of the participant with that id on the timeline that is
    shown. -/
def left? (s : Session α) (id : String) : Option α :=
  s.picture.timelineOrEmpty.left? id

theorem left?_of_timeline {s : Session α} {t : Timeline α} (ht : s.picture = .timeline t) : s.left? = t.left? := by
  funext id
  rw [left?, ht]
  rfl

end Session

variable [Scalar α]

namespace Desk

/-- A participant that is hit is dragged from where it is. -/
theorem press_participant {d : Desk α} {p : Point α} {id : String} (hhit : d.session.hit p = .participant id)
    (additive : Bool) :
    ∃ t x, d.session.picture = .timeline t ∧ t.left? id = some x ∧
      (d.press p .left additive).state = under d.session ⟨.participant x, .participant id, p, p⟩ p := by
  obtain ⟨t, ht, hid⟩ := Session.timeline_of_hit hhit
  have hitem : t.participants[id]? = some t.participants[id] := Std.ExtTreeMap.getElem?_eq_some_getElem hid
  refine ⟨t, t.participants[id].x, ht, ?_, ?_⟩
  · rw [Timeline.left?, hitem]
    rfl
  · let pressed : Desk α :=
      { d with pointer := { d.pointer with pressed := p, last := p, active := .participant id } }
    have hdeselect : pressed.onChart ChartStage.deselectEdge = .done pressed := by
      rw [onChart, onSession, Session.onChart, ht]
      rfl
    have hpress : d.press p .left additive =
        (pressed.onChart ChartStage.deselectEdge).andThen fun e => .done (e.dragParticipant id) := by
      rw [press, hhit]
      rfl
    rw [hpress, hdeselect, Outcome.andThen_of_refusal_eq_none rfl, Outcome.done_state, Outcome.done_state,
      dragParticipant, ht, Picture.timelineOrEmpty, hitem]
    rfl

/-- What is known of a session while a participant of a timeline is dragged from
    a point and from a left side. -/
structure Slides (t : Timeline α) (store : Store α) (id : String) (x : α) (start last : Point α)
    (session : Session α) : Prop where
  timeline : ∃ t', session.picture = .timeline t'
  accepts : session.surface.Accepts
  store_eq : session.store = store
  left? : ∀ other, session.left? other = if id = other then some (x + (last - start).x) else t.left? other

section Slide

variable {t : Timeline α} {store : Store α} {id : String} {x : α} {held : Pointer α} {session : Session α}

/-- At the press every participant is where it was. -/
theorem slides_start (hexact : Scalar.Exact α) (ht : session.picture = .timeline t)
    (haccepts : session.surface.Accepts) (hx : t.left? id = some x) (start : Point α) :
    Slides t session.store id x start start session where
  timeline := ⟨t, ht⟩
  accepts := haccepts
  store_eq := rfl
  left? other := by
    rw [Session.left?_of_timeline ht]
    split
    · rename_i hid
      rw [← hid, hx]
      exact congrArg some (hexact.add_sub_self x start.x).symm
    · rfl

/-- A drag to another point puts the participant there from where it was at the
    press, sideways only, so nothing of the last point is left. -/
theorem carries_participant (t : Timeline α) (store : Store α) (hdrag : held.drag = .participant x)
    (hactive : held.active = .participant id) : Carries held (Slides t store id x held.pressed) := by
  intro session last q h
  obtain ⟨t', ht'⟩ := h.timeline
  have hdragTo : (under session held last).dragTo q = (under session held last).onSession fun s =>
      s.onTimeline fun t => t.moveParticipant id (x + (q - held.pressed).x) := by
    have hparticipant : (under session held last).pointer.drag = .participant x := hdrag
    rw [dragTo, hparticipant]
    simp only [hactive, Hit.id]
  have haccepts : (session.withPicture t').surface.Accepts := h.accepts
  obtain ⟨hrefusal, hleft⟩ :=
    TimelineStage.moveParticipant_left? haccepts id (x + (q - held.pressed).x)
  have hrecords := TimelineStage.moveParticipant_sameRecords (session.withPicture t') id (x + (q - held.pressed).x)
  have hsetup := TimelineStage.moveParticipant_sameSetup (session.withPicture t') id (x + (q - held.pressed).x)
  have hlast : t'.left? id = some (x + (last - held.pressed).x) := by
    rw [← Session.left?_of_timeline ht', h.left?, if_pos rfl]
  rw [hdragTo, onSession, Session.onTimeline_of_timeline ht']
  refine ⟨hrefusal, ⟨_, rfl⟩, hsetup.accepts haccepts, hrecords.store.trans h.store_eq, fun other => ?_⟩
  refine (hleft other).trans ?_
  split
  · exact congrArg (Option.map _) hlast
  · rename_i hid
    have hother := h.left? other
    rw [Session.left?_of_timeline ht', if_neg hid] at hother
    exact hother

/-- The release records the participant where it is, in one save. It is recorded
    in any case, also if it was not moved. -/
theorem Slides.commit (hdrag : held.drag = .participant x) (hactive : held.active = .participant id) {q : Point α}
    (h : Slides t store id x held.pressed q session) :
    ((under session held q).commitDrag q).session.picture = session.picture ∧
      ∃ p, session.picture.timelineOrEmpty.participants[id]? = some p ∧
        ((under session held q).commitDrag q).session.store = store.setNode id p.header := by
  obtain ⟨t', ht'⟩ := h.timeline
  have hcommit : (under session held q).commitDrag q =
      ((under session held q).onSession fun s => s.onTimeline fun t => .done (t.commitParticipant id)).state := by
    have hparticipant : (under session held q).pointer.drag = .participant x := hdrag
    rw [commitDrag, hparticipant]
    simp only [hactive, Hit.id]
  have hlast := h.left? id
  rw [if_pos rfl, Session.left?_of_timeline ht'] at hlast
  obtain ⟨p, hp, -⟩ := Option.map_eq_some_iff.mp hlast
  have hcommits := TimelineStage.commitParticipant_commits (s := session.withPicture t') hp
  have hpicture : (TimelineStage.commitParticipant (session.withPicture t') id).picture = t' := by
    unfold TimelineStage.commitParticipant
    split <;> rfl
  rw [hcommit, onSession, Session.onTimeline_of_timeline ht']
  refine ⟨?_, p, ?_, ?_⟩
  · rw [ht']
    exact congrArg Picture.timeline hpicture
  · rw [ht']
    exact hp
  · rw [← h.store_eq]
    exact hcommits.store

end Slide

end Desk

end LiveDiagram
