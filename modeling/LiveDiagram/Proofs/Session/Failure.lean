import LiveDiagram.Proofs.Session.Afresh
import LiveDiagram.Proofs.Timeline.Untitled

namespace LiveDiagram.Session

variable {α : Type}

/-- The stage for a sequence diagram does not depend on what is refused. -/
theorem agreeBut_timelineStage {torn : String → Prop} {s t : Session α} (h : Stage.AgreeBut torn s t)
    (ids : List String) : Stage.AgreeBut torn (s.timelineStage ids) (t.timelineStage ids) := by
  unfold timelineStage
  rw [h.picture]
  split
  · split
    · exact h.withPicture _
    · exact h.clearSurface.withPicture _
  · exact h.clearSurface.withPicture _

/-- Whichever timeline a session has for a diagram, its surface refuses the
    same. -/
theorem timelineStage_refused (s : Session α) (ids : List String) :
    (s.timelineStage ids).surface.refused = s.surface.refused := by
  unfold timelineStage
  split
  · split <;> rfl
  · rfl

/-- The stage on which the session shows the diagram refuses its title, if the
    diagram has one and the surface refuses the part that it is. -/
theorem refusesTitle_timelineStage (s : Session α) (d : Sequence) :
    (s.timelineStage (d.participants.map Participant.id)).RefusesTitle d ↔
      d.title ≠ "" ∧ Part.title.id ∈ s.surface.refused := by
  unfold TimelineStage.RefusesTitle
  rw [timelineStage_refused]

/-- What the surface refuses, but for the title. -/
def otherRefusals (s : Session α) : List String :=
  s.surface.refused.filter fun name => name != Part.title.id

variable [Scalar α]

/-- The session is what showing a diagram leaves, `shown`, but for its title:
    the timeline is the same except that it does not know yet in which order its
    participants stand, all that is drawn is the same except the title, and no
    place is recorded. -/
structure LacksTitle (before after shown : Session α) : Prop where
  picture : ∃ (t : Timeline α) (order : List String),
    after.picture = .timeline t ∧ shown.picture = .timeline { t with order }
  surface : ∀ name, name ≠ Part.title.id → after.surface.find? name = shown.surface.find? name
  store : after.store.load = before.store.load

/-- A surface that refuses all but the title refuses no title. -/
theorem accepts_title_otherRefusals (s : Session α) (d : Sequence) :
    ¬ ((s.call (.refuse s.otherRefusals)).timelineStage
      (d.participants.map Participant.id)).RefusesTitle d := by
  rw [refusesTitle_timelineStage]
  rintro ⟨-, hmem⟩
  simp [call, otherRefusals] at hmem

/-- Up to the title it makes no difference whether the surface refuses the
    title: ids of participants, messages and notes do not start with the letter
    that the id of the title starts with. -/
theorem agreeBut_untitled_otherRefusals (s : Session α) (d : Sequence) :
    Stage.AgreeBut (· = Part.title.id)
      ((s.timelineStage (d.participants.map Participant.id)).untitled d)
      (((s.call (.refuse s.otherRefusals)).timelineStage
        (d.participants.map Participant.id)).untitled d) := by
  have hstart : Stage.AgreeBut (· = Part.title.id) s (s.call (.refuse s.otherRefusals)) := by
    refine ⟨⟨_, rfl⟩, fun name hname => ?_, fun _ _ => rfl⟩
    simp [call, otherRefusals, hname]
  refine TimelineStage.agreeBut_untitled (agreeBut_timelineStage hstart _) d ?_ ?_ ?_
  · exact fun id => .inl fun name hname => TimelineStage.ne_title_of_head?
      (ParticipantItem.head?_of_mem_partIds hname) (by decide)
  · exact fun key => .inl fun name hname => TimelineStage.ne_title_of_head?
      (MessageItem.head?_of_mem_partIds hname) (by decide)
  · exact fun key => .inl fun name hname => TimelineStage.ne_title_of_head?
      (NoteItem.head?_of_mem_partIds hname) (by decide)

section Sequence

variable {s : Session α} {text : String} {d : Sequence}

/-- What is reported of the text of a sequence diagram is the diagram, or the
    refusal that stopped it. -/
theorem renderText_report_of_sequence [YamlReader] (htext : Diagram.ofText text = .sequence d) :
    (s.renderText text).2 = match (s.renderSequence d).refusal with
      | none => .ofDiagram (.sequence d)
      | some r => .refused r := by
  unfold renderText
  rw [htext]
  rfl

theorem renderText_report_of_refusesTitle [YamlReader] (htext : Diagram.ofText text = .sequence d)
    (h : (s.timelineStage (d.participants.map Participant.id)).RefusesTitle d) :
    (s.renderText text).2 = .refused ⟨Part.title.id⟩ := by
  have hrefusal : (s.renderSequence d).refusal = some ⟨Part.title.id⟩ :=
    congrArg Outcome.refusal (TimelineStage.render_of_refusesTitle h)
  rw [renderText_report_of_sequence htext, hrefusal]

/-- The text of a sequence diagram is shown to the end, if its title is not
    refused. Other refusals leave something out and stop nothing. -/
theorem renderText_ok_of_not_refusesTitle [YamlReader] (htext : Diagram.ofText text = .sequence d)
    (h : ¬ (s.timelineStage (d.participants.map Participant.id)).RefusesTitle d) :
    (s.renderText text).2.ok = true := by
  have hrefusal : (s.renderSequence d).refusal = none :=
    (TimelineStage.render_of_not_refusesTitle h).1
  rw [renderText_report_of_sequence htext, hrefusal]
  rfl

/-- A rendering that the title stops differs in the title alone from the one
    that is not stopped. -/
theorem lacksTitle_renderSequence
    (h : (s.timelineStage (d.participants.map Participant.id)).RefusesTitle d) :
    LacksTitle s (s.renderSequence d).state
      ((s.call (.refuse s.otherRefusals)).renderSequence d).state := by
  let stage := s.timelineStage (d.participants.map Participant.id)
  have hagree := s.agreeBut_untitled_otherRefusals d
  obtain ⟨-, hpicture, hsurface⟩ := TimelineStage.render_of_not_refusesTitle (s.accepts_title_otherRefusals d)
  have hstopped : (s.renderSequence d).state =
      ((stage.untitled d).set { (stage.untitled d).picture with title := d.title }).withPicture
        (.timeline { (stage.untitled d).picture with title := d.title }) := by
    unfold renderSequence
    rw [TimelineStage.render_of_refusesTitle h]
    rfl
  rw [hstopped]
  refine ⟨⟨_, d.participants.map Participant.id, rfl, ?_⟩, fun name hname => ?_, ?_⟩
  · rw [hagree.picture] at hpicture
    exact congrArg Picture.timeline hpicture
  · exact ((hsurface name hname).trans (hagree.surface.primitives name hname)).symm
  · have hstore : stage.store = s.store := timelineStage_store s _
    exact (stage.untitled_store d).trans (congrArg Store.load hstore)

end Sequence

/-- Showing a text fails just when it is the text of a sequence diagram whose
    title is refused. Then the session does not keep what it showed before: it
    shows the diagram, under the settings of its own text, without its title. -/
theorem renderText_fails_iff [YamlReader] (s : Session α) (text : String) :
    ((s.renderText text).2.ok = false ↔
      ∃ d, Diagram.ofText text = .sequence d ∧ d.title ≠ "" ∧ Part.title.id ∈ s.surface.refused) ∧
    ((s.renderText text).2.ok = false →
      (s.renderText text).2 = .refused ⟨Part.title.id⟩ ∧
        ((s.call (.refuse s.otherRefusals)).renderText text).2.ok = true ∧
        LacksTitle s (s.renderText text).1
          ((s.call (.refuse s.otherRefusals)).renderText text).1) := by
  cases htext : Diagram.ofText text with
  | flowchart d =>
    have hok : (s.renderText text).2.ok = true := by
      unfold renderText
      rw [htext]
      rfl
    simp [hok]
  | sequence d =>
    have hiff := refusesTitle_timelineStage s d
    by_cases h : (s.timelineStage (d.participants.map Participant.id)).RefusesTitle d
    · have hreport := renderText_report_of_refusesTitle htext h
      refine ⟨⟨fun _ => ⟨d, rfl, hiff.mp h⟩, fun _ => by rw [hreport]; rfl⟩, fun _ =>
        ⟨hreport, ?_, ?_⟩⟩
      · exact renderText_ok_of_not_refusesTitle htext (s.accepts_title_otherRefusals d)
      · rw [renderText_of_sequence htext, renderText_of_sequence htext]
        exact lacksTitle_renderSequence h
    · have hok := renderText_ok_of_not_refusesTitle htext h
      refine ⟨⟨fun hfails => ?_, ?_⟩, fun hfails => ?_⟩
      · rw [hok] at hfails
        cases hfails
      · rintro ⟨e, he, htitle⟩
        cases he
        exact absurd (hiff.mpr htitle) h
      · rw [hok] at hfails
        cases hfails

/-- A session that shows a flowchart, on a surface that refuses titles from now
    on. -/
def untitledChart : Session Float :=
  (start (fun _ => ⟨0, 0⟩) default).run
    [.render (Diagram.ofText "flowchart TD\na --> b"), .refuse [Part.title.id]]

/-- The flowchart is gone after a text that could not be shown. -/
theorem renderText_fails_untitledChart :
    (untitledChart.renderText "sequence\ntitle T\nparticipant p").2.ok = false ∧
      (∃ c, untitledChart.picture = .chart c) ∧
      ∃ t, (untitledChart.renderText "sequence\ntitle T\nparticipant p").1.picture = .timeline t := by
  have htext : Diagram.ofText "sequence\ntitle T\nparticipant p" =
      .sequence { title := "T", participants := [⟨"p", "p"⟩] } := rfl
  have hfails : (untitledChart.renderText "sequence\ntitle T\nparticipant p").2.ok = false :=
    (renderText_fails_iff untitledChart _).1.mpr ⟨_, htext, by decide, List.mem_singleton.mpr rfl⟩
  obtain ⟨-, -, hlacks⟩ := (renderText_fails_iff untitledChart _).2 hfails
  obtain ⟨t, -, hpicture, -⟩ := hlacks.picture
  exact ⟨hfails, ⟨_, rfl⟩, t, hpicture⟩

end LiveDiagram.Session
