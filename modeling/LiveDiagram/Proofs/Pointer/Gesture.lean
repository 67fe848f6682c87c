import LiveDiagram.Proofs.Pointer.Kept

namespace LiveDiagram

variable {α : Type}

/-- A left press at a point, and moves to some points. -/
def Event.held (p : Point α) (additive : Bool) (moves : List (Point α)) : List (Event α) :=
  .press p .left additive :: moves.map .move

/-- A left press at a point, moves to some points, and the left release at
    another one, with nothing in between. -/
def Event.gesture (p : Point α) (additive : Bool) (moves : List (Point α)) (q : Point α) : List (Event α) :=
  held p additive moves ++ [.release q .left]

variable [Scalar α]

namespace Desk

/-- The session under a pointer that holds something and was last at a point. -/
abbrev under (session : Session α) (held : Pointer α) (last : Point α) : Desk α where
  session
  pointer := { held with last }

/-- What is known of a session during a drag, by the last point of the pointer.
    Nothing stops a drag to another point, and there the same is known. -/
def Carries (held : Pointer α) (known : Point α → Session α → Prop) : Prop :=
  ∀ session last p, known last session → ((under session held last).dragTo p).refusal = none ∧
    known p ((under session held last).dragTo p).state.session

section Carried

variable {held : Pointer α} {known : Point α → Session α → Prop} {session : Session α} {last : Point α}

/-- What is known before a move is known after it, of the point where it
    went. -/
theorem Carries.move (h : Carries held known) (hknown : known last session) (p : Point α) :
    ∃ session', ((under session held last).move p).state = under session' held p ∧ known p session' := by
  obtain ⟨hrefusal, hp⟩ := h session last p hknown
  rw [move_of_unstopped hrefusal]
  exact ⟨_, rfl, hp⟩

/-- What is known before some moves is known after them. The pointer keeps what
    it holds, and only its last point changes. -/
theorem Carries.moves [YamlReader] (h : Carries held known) (hknown : known last session) (moves : List (Point α)) :
    ∃ session' last', (under session held last).events (moves.map .move) = under session' held last' ∧
      known last' session' := by
  induction moves generalizing session last with
  | nil => exact ⟨session, last, rfl, hknown⟩
  | cons p moves ih =>
    obtain ⟨session', hmove, hknown'⟩ := h.move hknown p
    obtain ⟨session'', last', hmoves, hlast⟩ := ih hknown'
    refine ⟨session'', last', ?_, hlast⟩
    rw [← hmoves, ← hmove]
    rfl

/-- The release commits a drag that was taken to its point. A release away from
    the last point of the pointer moves there first, and with exact scalars any
    other release is at that very point. -/
theorem Carries.release (hexact : Scalar.Exact α) (h : Carries held known) (hknown : known last session)
    (hheld : held.drag ≠ .nothing) (q : Point α) :
    ∃ session', ((under session held last).release q .left).state.session =
      ((under session' held q).commitDrag q).session ∧ known q session' := by
  obtain ⟨hrefusal, -⟩ := h session last q hknown
  rw [release_left_of_unstopped hrefusal, dragEnd]
  split
  · obtain ⟨session', hmove, hknown'⟩ := h.move hknown q
    rw [hmove]
    exact ⟨session', rfl, hknown'⟩
  · rename_i hstays
    have hdragging : (under session held last).isDragging = true := by
      by_contra hidle
      exact hheld (drag_eq_nothing (Bool.eq_false_iff.mpr hidle))
    have hsame : q.same last = true := by
      rw [movesOn, hdragging, Bool.true_and, Bool.not_eq_true', Bool.not_eq_false] at hstays
      exact hstays
    obtain rfl := (Point.same_iff hexact).mp hsame
    exact ⟨session, rfl, hknown⟩

/-- What is known after the press of a gesture is known throughout it, up to
    where the release commits the drag. So what a drag to any point takes from
    one point to the next holds of the whole gesture, whatever the moves
    were. -/
theorem Carries.gesture [YamlReader] (hexact : Scalar.Exact α) (h : Carries held known) {d : Desk α}
    {p : Point α} {additive : Bool}
    (hpress : (d.press p .left additive).state = under session held p) (hknown : known p session)
    (hheld : held.drag ≠ .nothing) (moves : List (Point α)) (q : Point α) :
    (∃ last, known last (d.events (Event.held p additive moves)).session) ∧
      ∃ session', known q session' ∧ (d.events (Event.gesture p additive moves q)).session =
        ((under session' held q).commitDrag q).session := by
  obtain ⟨moved, last, hmoved, hlast⟩ := h.moves hknown moves
  have hevents : d.events (Event.held p additive moves) = under moved held last := by
    rw [← hmoved, ← hpress]
    rfl
  obtain ⟨session', hreleased, hq⟩ := h.release hexact hlast hheld q
  refine ⟨⟨last, ?_⟩, session', hq, ?_⟩
  · rw [hevents]
    exact hlast
  · rw [Event.gesture, events_append_singleton, hevents, ← hreleased]
    rfl

end Carried

end Desk

end LiveDiagram
