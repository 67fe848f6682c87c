import LiveDiagram.Proofs.Session.Afresh
import LiveDiagram.Proofs.Session.Consistent
import LiveDiagram.Proofs.Timeline.Following

namespace LiveDiagram

variable {α : Type}

/-- The diagram that is shown after a call, if one was shown before. -/
def Call.shown (before : Option Diagram) : Call α → Option Diagram
  | .render d => some d
  | .clear => none
  | .updateSettings _ | .editChart _ | .editTimeline _ | .replaceStore _ | .refuse _ => before

/-- A text states no note that lists a participant twice. -/
theorem Call.OfText.notesDistinct {c : Call α} (hc : c.OfText) : c.NotesDistinct := by
  cases c with
  | render d =>
    cases d with
    | flowchart d => exact trivial
    | sequence d => exact hc.nodup_notes
  | refuse ids => exact hc.elim
  | clear | updateSettings _ | editChart _ | editTimeline _ | replaceStore _ => exact trivial

variable [Scalar α]

namespace Session

/-- The session is tidy and linked, and its timeline, if there is one, follows
    its participants, in the rows of the diagram that was shown last. -/
structure Arranged (s : Session α) (shown : Option Diagram) : Prop where
  tidy : s.Tidy
  linked : s.TimelineLinked
  timeline : ∀ t, s.picture = .timeline t → ∃ d, shown = some (.sequence d) ∧ t.Rows d ∧
    TimelineStage.Following (s.withPicture t)

namespace Arranged

variable {s : Session α} {shown : Option Diagram}

/-- At the start nothing is shown, and there is nothing to arrange. -/
theorem start (measure : Measure α) (store : Store α) : Arranged (Session.start measure store) none where
  tidy := Tidy.start measure store
  linked := timelineLinked_of_chart rfl
  timeline t ht := by cases ht

/-- A change that leaves the timeline alone, and what is drawn of it, leaves a
    session arranged. -/
theorem congr (h : s.Arranged shown) {u : Session α} (hu : u.Tidy) (hlinked : u.TimelineLinked)
    (hsame : ∀ t, u.picture = .timeline t →
      s.picture = .timeline t ∧ u.surface = s.surface ∧ u.measure = s.measure) : u.Arranged shown where
  tidy := hu
  linked := hlinked
  timeline t ht := by
    obtain ⟨hbefore, hsurface, hmeasure⟩ := hsame t ht
    obtain ⟨d, hd, hrows, hfollowing⟩ := h.timeline t hbefore
    cases u
    cases hsurface
    cases hmeasure
    exact ⟨d, hd, hrows, ⟨hfollowing.accepts, hfollowing.message, hfollowing.note⟩, hfollowing.title⟩

/-- What is done to the chart leaves a session arranged: a timeline that is
    shown is not changed by it. -/
theorem onChart (h : s.Arranged shown) {f : ChartStage α → Outcome (ChartStage α)}
    (htidy : (s.onChart f).state.Tidy) (hlinked : (s.onChart f).state.TimelineLinked) :
    (s.onChart f).state.Arranged shown := by
  refine h.congr htidy hlinked fun t ht => ?_
  obtain ⟨hbefore, hsame⟩ := timeline_of_onChart ht
  rw [hsame]
  exact ⟨hbefore, rfl, rfl⟩

/-- The notes that a diagram finds on the timeline are over some
    participants. -/
theorem over_ne_nil (h : s.Arranged shown) (ids : List String) {key : String} {n : NoteItem α}
    (hn : (s.timelineStage ids).picture.notes[key]? = some n) : n.note.participants ≠ [] := by
  rcases s.timelineStage_cases ids with ⟨t, ht, -, hstage⟩ | hstage
  · obtain ⟨d, -, hrows, -⟩ := h.timeline t ht
    rw [hstage] at hn
    obtain ⟨_, _, -, -, -, hover, -⟩ := hrows.note hn
    exact hover
  · rw [hstage] at hn
    simp [Stage.withPicture, Timeline.empty] at hn

/-- After a participant is moved or recorded the timeline still follows its
    participants. Their messages and notes are drawn again with them. -/
theorem editTimeline (h : s.Arranged shown) (e : TimelineEdit α) {t : Timeline α}
    (ht : (s.call (.editTimeline e)).picture = .timeline t) :
    ∃ d, shown = some (.sequence d) ∧ t.Rows d ∧
      TimelineStage.Following ((s.call (.editTimeline e)).withPicture t) := by
  cases hpicture : s.picture with
  | chart c =>
    unfold Session.call Session.onTimeline at ht
    rw [hpicture] at ht
    exact absurd (hpicture.symm.trans ht) (by simp)
  | timeline before =>
    obtain ⟨d, hd, hrows, hfollowing⟩ := h.timeline before hpicture
    unfold Session.call Session.onTimeline at ht ⊢
    rw [hpicture] at ht ⊢
    cases ht
    exact ⟨d, hd, TimelineStage.rows_edit (s := s.withPicture before) hrows e,
      hfollowing.edit (h.linked before hpicture) e⟩

/-- A call that shows only what texts state leaves a session arranged. -/
theorem call (h : s.Arranged shown) {c : Call α} (hc : c.OfText) : (s.call c).Arranged (c.shown shown) := by
  have htidy := h.tidy.call hc
  have hlinked := h.linked.call hc.notesDistinct
  cases c with
  | render d =>
    refine ⟨htidy, hlinked, fun t ht => ?_⟩
    cases d with
    | flowchart d => cases ht
    | sequence d =>
      cases ht
      obtain ⟨hstage, hids⟩ := h.tidy.timelineStage (d.participants.map Participant.id)
      have hbar := hc.barFree
      refine ⟨d, rfl, ?_, TimelineStage.following_render hstage hids hbar⟩
      rw [(TimelineStage.render_scene hstage.accepts hids).1]
      exact TimelineStage.rows_rendered hstage hbar fun hn => h.over_ne_nil _ hn
  | clear => exact ⟨htidy, hlinked, fun t ht => by cases ht⟩
  | updateSettings settings =>
    have hsettings : Arranged { s with settings } shown :=
      h.congr (h.tidy.congr rfl rfl) h.linked fun t ht => ⟨ht, rfl, rfl⟩
    exact hsettings.onChart htidy hlinked
  | editChart e => exact h.onChart htidy hlinked
  | editTimeline e => exact ⟨htidy, hlinked, fun t ht => h.editTimeline e ht⟩
  | replaceStore store => exact h.congr htidy hlinked fun t ht => ⟨ht, rfl, rfl⟩
  | refuse ids => exact hc.elim

/-- A run that shows only what texts state leaves a session arranged. -/
theorem run (h : s.Arranged shown) {calls : List (Call α)} (hcalls : ∀ c ∈ calls, c.OfText) :
    (s.run calls).Arranged (calls.foldl Call.shown shown) := by
  unfold Session.run
  induction calls generalizing s shown with
  | nil => exact h
  | cons c calls ih =>
    refine ih (h.call (hcalls c List.mem_cons_self)) ?_
    exact fun other hother => hcalls other (List.mem_cons_of_mem _ hother)

end Arranged

end Session

end LiveDiagram
