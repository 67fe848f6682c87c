import LiveDiagram.Number.Double
import LiveDiagram.Proofs.Timeline.Operations

namespace LiveDiagram

variable {α : Type}

/-- The call shows no note that lists a participant twice. -/
def Call.NotesDistinct : Call α → Prop
  | .render (.sequence d) => ∀ n ∈ d.notes, n.participants.Nodup
  | _ => True

namespace Session

/-- The timeline of the session, if there is one, is linked. -/
def TimelineLinked (s : Session α) : Prop :=
  ∀ t, s.picture = .timeline t → t.Linked

/-- A session that shows a chart has no timeline that could be unlinked. -/
theorem timelineLinked_of_chart {s : Session α} {c : Chart α} (hs : s.picture = .chart c) :
    s.TimelineLinked := by
  intro t ht
  rw [hs] at ht
  cases ht

/-- The timeline that a session has for a diagram is linked: it is the one that
    is shown, or else an empty one. -/
theorem TimelineLinked.timelineStage {s : Session α} (hs : s.TimelineLinked) (ids : List String) :
    (s.timelineStage ids).picture.Linked := by
  rcases s.timelineStage_cases ids with ⟨t, ht, -, hstage⟩ | hstage
  · rw [hstage]
    exact hs t ht
  · rw [hstage]
    exact Timeline.linked_empty

/-- What is on the picture is of one kind of diagram. Every edge ends at nodes
    that are there, which list it, and every message and every note is attached
    to participants that are there, which list it; nothing else is listed, and
    nothing twice. -/
structure Consistent (s : Session α) : Prop where
  chart : s.picture.chartOrEmpty.Linked
  ends_found : ∀ (key : String) (e : EdgeItem α), s.picture.chartOrEmpty.edges[key]? = some e →
    (s.picture.chartOrEmpty.ends? e.edge).isSome
  timeline : s.picture.timelineOrEmpty.Consistent
  timeline_eq : ∀ c, s.picture = .chart c → s.picture.timelineOrEmpty = .empty
  chart_eq : ∀ t, s.picture = .timeline t → s.picture.chartOrEmpty = .empty

/-- A session whose chart and timeline are linked is consistent. -/
theorem consistent_of_linked {s : Session α} (hchart : s.Sound) (htimeline : s.TimelineLinked) :
    s.Consistent := by
  have hlinked : s.picture.chartOrEmpty.Linked ∧ s.picture.timelineOrEmpty.Linked := by
    cases hpicture : s.picture with
    | chart c => exact ⟨(hchart c hpicture).1, Timeline.linked_empty⟩
    | timeline t => exact ⟨Chart.linked_empty, htimeline t hpicture⟩
  refine ⟨hlinked.1, fun key e he => hlinked.1.ends?_isSome he, hlinked.2.consistent, ?_, ?_⟩
  · intro c hc
    rw [hc]
    rfl
  · intro t ht
    rw [ht]
    rfl

variable [Scalar α]

/-- Every call keeps the timeline linked, also one that the surface stops. -/
theorem TimelineLinked.call {s : Session α} (hs : s.TimelineLinked) {c : Call α}
    (hc : c.NotesDistinct) : (s.call c).TimelineLinked := by
  refine fun t ht => call_timeline (I := fun u => u.picture.Linked) ?_ ?_ ?_ ?_ hs ht
  · intro u v hpicture _ hu
    rw [hpicture]
    exact hu
  · exact fun u e hu => TimelineStage.linked_edit hu e
  · rintro d rfl
    exact TimelineStage.linked_render (hs.timelineStage _) hc
  · exact fun _ _ _ hu => hu

/-- In every state that a session comes to, whatever its surface refuses, the
    things on its picture refer to each other consistently, as long as no note
    is shown that lists a participant twice. Such a note would be listed twice
    at that participant. -/
theorem consistent_run (measure : Measure α) (store : Store α) {calls : List (Call α)}
    (hcalls : ∀ c ∈ calls, c.NotesDistinct) : ((start measure store).run calls).Consistent := by
  refine consistent_of_linked (sound_run measure store calls) ?_
  exact run_induction (fun c hc s hs => hs.call (hcalls c hc)) (timelineLinked_of_chart rfl)

/-- The calls that show a message from a participant to itself and a note, move
    another participant while it cannot be drawn, and show the diagram without
    that participant. -/
def stoppedCalls : List (Call Float) :=
  [.render (.sequence
      { participants := [⟨"a", "A"⟩, ⟨"b", "B"⟩]
        messages := [{ source := "a", target := "a", text := "x" }, { source := "a", target := "b", text := "y" }]
        notes := [⟨["a", "b"], "z"⟩] }),
    .refuse [(Part.participant "b").id, Part.title.id], .editTimeline (.moveParticipant "b" 40),
    .render (.sequence { title := "t", participants := [⟨"a", "A"⟩], notes := [⟨["a", "b"], "z"⟩] })]

/-- Stopped in the midst of a move and before a title, a session is consistent
    all the same. -/
theorem consistent_run_stoppedCalls :
    ((start (fun _ => ⟨0, 0⟩) default : Session Float).run stoppedCalls).Consistent := by
  have hdistinct : ∀ c ∈ stoppedCalls, c.NotesDistinct := by
    intro c hc
    simp only [stoppedCalls, List.mem_cons, List.not_mem_nil, or_false] at hc
    rcases hc with rfl | rfl | rfl | rfl
    · unfold Call.NotesDistinct
      decide
    · trivial
    · trivial
    · unfold Call.NotesDistinct
      decide
  exact consistent_run _ _ hdistinct

end Session

end LiveDiagram
