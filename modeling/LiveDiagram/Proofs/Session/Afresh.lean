import LiveDiagram.Number.Double
import LiveDiagram.Proofs.Sequence.Statement
import LiveDiagram.Proofs.Session.Current
import LiveDiagram.Proofs.Timeline.Afresh

namespace LiveDiagram

variable {α : Type}

/-- The call shows only what a text states, under any settings, and makes the
    surface refuse nothing. -/
def Call.OfText : Call α → Prop
  | .render d => d.OfText
  | .refuse _ => False
  | _ => True

namespace Session

/-- The surface refuses nothing, and the timeline, if there is one, is tidy. -/
structure Tidy (s : Session α) : Prop where
  accepts : s.surface.Accepts
  timeline : ∀ t, s.picture = .timeline t → TimelineStage.Tidy (s.withPicture t)

namespace Tidy

variable {s : Session α}

/-- Whether a session is tidy is seen at its picture and its surface. -/
theorem congr (hs : s.Tidy) {u : Session α} (hpicture : u.picture = s.picture)
    (hsurface : u.surface = s.surface) : u.Tidy where
  accepts := by
    rw [hsurface]
    exact hs.accepts
  timeline t ht := by
    have htidy := hs.timeline t (hpicture ▸ ht)
    cases u
    cases hsurface
    exact ⟨htidy.accepts, htidy.ordered, htidy.keyed, htidy.owned⟩

/-- A session with a chart is tidy if its surface refuses nothing. -/
theorem of_chart {t : ChartStage α} (ht : t.surface.Accepts) :
    Tidy (t.withPicture (Picture.chart t.picture)) where
  accepts := ht
  timeline t ht := by cases ht

theorem of_timeline {t : TimelineStage α} (ht : t.Tidy) :
    Tidy (t.withPicture (Picture.timeline t.picture)) where
  accepts := ht.accepts
  timeline u hu := by
    cases hu
    exact ht

/-- The stage for a sequence diagram is tidy, and its participants are among
    those of the diagram. A timeline with other participants is not kept for
    it. -/
theorem timelineStage (hs : s.Tidy) (ids : List String) :
    (s.timelineStage ids).Tidy ∧ ∀ id ∈ (s.timelineStage ids).picture.participants, id ∈ ids := by
  refine ⟨?_, fun id hid => mem_of_mem_timelineStage (fun t ht => (hs.timeline t ht).ordered) hid⟩
  rcases s.timelineStage_cases ids with ⟨t, ht, -, hstage⟩ | hstage
  · rw [hstage]
    exact hs.timeline t ht
  · rw [hstage]
    exact TimelineStage.tidy_empty hs.accepts rfl rfl

theorem start (measure : Measure α) (store : Store α) : (Session.start measure store).Tidy where
  accepts := rfl
  timeline t ht := by cases ht

/-- What is done to the chart keeps a session tidy, as long as it makes the
    surface refuse nothing. -/
theorem onChart (hs : s.Tidy) {f : ChartStage α → Outcome (ChartStage α)}
    (hf : ∀ t : ChartStage α, Stage.SameSetup t (f t).state) : (s.onChart f).state.Tidy := by
  unfold Session.onChart
  split
  · exact of_chart ((hf _).accepts hs.accepts)
  · exact hs

theorem onTimeline (hs : s.Tidy) {f : TimelineStage α → Outcome (TimelineStage α)}
    (hf : ∀ t : TimelineStage α, t.Tidy → (f t).state.Tidy) : (s.onTimeline f).state.Tidy := by
  unfold Session.onTimeline
  split
  · exact hs
  · exact of_timeline (hf _ (hs.timeline _ ‹_›))

variable [Scalar α]

/-- Drawing a sequence diagram keeps a session tidy. With bars in its ids, two
    of its messages could have one key. -/
theorem renderSequence (hs : s.Tidy) {d : Sequence} (hbar : ∀ m ∈ d.messages, m.BarFree) :
    (s.renderSequence d).state.Tidy := by
  obtain ⟨htidy, hids⟩ := hs.timelineStage (d.participants.map Participant.id)
  exact of_timeline (htidy.render hids hbar)

/-- Every call that shows only what texts state keeps the session tidy. -/
theorem call (hs : s.Tidy) {c : Call α} (hc : c.OfText) : (s.call c).Tidy := by
  cases c with
  | render d =>
    cases d with
    | flowchart d =>
      have hsteps := s.chartStage.render_steps (P := fun _ => True) (d := d) fun _ _ => trivial
      exact of_chart (hsteps.sameSetup.accepts (accepts_chartStage hs.accepts))
    | sequence d => exact hs.renderSequence (hc.barFree)
  | clear => exact of_chart (t := s.clearSurface.withPicture .empty) hs.accepts
  | updateSettings settings =>
    have hsettings : Tidy { s with settings } := hs.congr rfl rfl
    exact hsettings.onChart fun t => (t.restyle_steps (P := fun _ => True)).sameSetup
  | editChart e => exact hs.onChart fun t => (t.edit_steps (P := fun _ => True) e).sameSetup
  | editTimeline e => exact hs.onTimeline fun t ht => ht.edit e
  | replaceStore store => exact hs.congr rfl rfl
  | refuse ids => exact hc.elim

/-- A run that shows only what texts state keeps the session tidy. -/
theorem run (hs : s.Tidy) {calls : List (Call α)} (hcalls : ∀ c ∈ calls, c.OfText) :
    (s.run calls).Tidy :=
  run_induction (fun c hc _ ht => ht.call (hcalls c hc)) hs

end Tidy

/-- A new session with the same way to measure texts, over the same store. -/
def anew (s : Session α) : Session α :=
  start s.measure s.store

/-- Whichever timeline a session has for a diagram, it is over the same
    store. -/
theorem timelineStage_store (s : Session α) (ids : List String) :
    (s.timelineStage ids).store = s.store := by
  unfold timelineStage
  split
  · split <;> rfl
  · rfl

/-- Whichever timeline a session has for a diagram, its texts are measured in
    the same way. -/
theorem timelineStage_measure (s : Session α) (ids : List String) :
    (s.timelineStage ids).measure = s.measure := by
  unfold timelineStage
  split
  · split <;> rfl
  · rfl

/-- The timelines that a session and a new one have for a diagram can be
    compared: both are tidy, over one store, and with no participants but those
    of the diagram. -/
theorem Tidy.comparable {s : Session α} (hs : s.Tidy) {d : Sequence}
    (hbar : ∀ m ∈ d.messages, m.BarFree) :
    TimelineStage.Comparable d (s.timelineStage (d.participants.map Participant.id))
      (s.anew.timelineStage (d.participants.map Participant.id)) where
  tidy := (hs.timelineStage _).1
  tidy' := ((Tidy.start s.measure s.store).timelineStage _).1
  covered := (hs.timelineStage _).2
  covered' := ((Tidy.start s.measure s.store).timelineStage _).2
  store := (timelineStage_store s _).symm
  measure := (timelineStage_measure s _).symm
  barFree := hbar

variable [Scalar α]

/-- A diagram is shown on the timeline that the session has for it. -/
theorem Tidy.renderSequence_picture {s : Session α} (hs : s.Tidy) (d : Sequence) :
    (s.renderSequence d).state.picture =
      .timeline ((s.timelineStage (d.participants.map Participant.id)).rendered d) := by
  obtain ⟨htidy, hids⟩ := hs.timelineStage (d.participants.map Participant.id)
  exact congrArg Picture.timeline (TimelineStage.render_scene htidy.accepts hids).1

/-- Once a diagram is shown, diagrams with its participants are shown on its
    timeline. -/
theorem Tidy.timelineStage_renderSequence {s : Session α} (hs : s.Tidy) (d : Sequence) :
    ((s.renderSequence d).state.timelineStage (d.participants.map Participant.id)).picture =
      (s.renderSequence d).state.picture.timelineOrEmpty := by
  unfold Session.timelineStage
  rw [hs.renderSequence_picture d]
  have horder : ((s.timelineStage (d.participants.map Participant.id)).rendered d).order =
      d.participants.map Participant.id := rfl
  dsimp only
  rw [if_pos (by simp [horder])]
  rfl

/-- A text of a sequence diagram is shown by drawing that diagram. -/
theorem renderText_of_sequence [YamlReader] {text : String} {d : Sequence}
    (htext : Diagram.ofText text = .sequence d)
    (s : Session α) : (s.renderText text).1 = (s.renderSequence d).state := by
  unfold renderText
  rw [htext]
  rfl

/-- A session in which texts were shown and edited shows of a sequence diagram
    what a new session over the same store shows, just when the notes agree: no
    note that goes shares the id of a part with a note that comes, and each note
    that stays gets the box that it would get anew. The texts may have had any
    settings, and the one that is shown may too. All else that is on a timeline
    is drawn from the diagram and the store alone. -/
theorem renderText_eq_anew_iff [YamlReader] (measure : Measure α) (store : Store α) (calls : List (Call α))
    (hcalls : ∀ c ∈ calls, c.OfText) {text : String} {d : Sequence}
    (htext : Diagram.ofText text = .sequence d) :
    (((start measure store).run calls).renderText text).1.surface.primitives =
        (((start measure store).run calls).anew.renderText text).1.surface.primitives ↔
      Timeline.NotesAgree ((start measure store).run calls).measure
        (((start measure store).run calls).timelineStage (d.participants.map Participant.id)).picture
        (((start measure store).run calls).anew.renderText text).1.picture.timelineOrEmpty := by
  have hofText : (Diagram.sequence d).OfText := htext ▸ Diagram.ofText_ofText text
  have hcomparable := ((Tidy.start measure store).run hcalls).comparable hofText.barFree
  have hpicture := (TimelineStage.render_scene hcomparable.tidy'.accepts hcomparable.covered').1
  have hiff := hcomparable.render_eq_iff rfl
  rw [← hpicture] at hiff
  rw [renderText_of_sequence htext, renderText_of_sequence htext]
  exact hiff

/-- The text of a sequence diagram with one note. -/
def noteText (note : String) : String :=
  "sequence\nparticipant a\nnote over a: " ++ note

/-- The sequence diagram with one note. -/
def oneNote (note : String) : Sequence where
  participants := [⟨"a", "a"⟩]
  notes := [⟨["a"], note⟩]

/-- With one note shown, its key is the only one. -/
theorem Tidy.mem_notes_oneNote {s : Session α} (hs : s.Tidy) {note key : String} :
    key ∈ (s.renderSequence (oneNote note)).state.picture.timelineOrEmpty.notes ↔
      Note.key 0 ⟨["a"], note⟩ = key := by
  obtain ⟨htidy, hids⟩ := hs.timelineStage ((oneNote note).participants.map Participant.id)
  rw [hs.renderSequence_picture]
  refine (TimelineStage.mem_rendered_notes_iff htidy.accepts hids).trans ?_
  simp [oneNote]

/-- A session that shows one note. -/
def labelled : Session Float :=
  (start (fun _ => ⟨0, 0⟩) default).run [.render (Diagram.ofText (noteText "x:label"))]

/-- A note whose text is that of the note before without a colon and the word
    `label` loses its own label: it is erased with the body of the note
    before. -/
theorem renderText_ne_anew_labelled :
    (labelled.renderText (noteText "x")).1.surface.primitives ≠
      (labelled.anew.renderText (noteText "x")).1.surface.primitives := by
  intro heq
  have htext : Diagram.ofText (noteText "x:label") = .sequence (oneNote "x:label") := rfl
  have htext' : Diagram.ofText (noteText "x") = .sequence (oneNote "x") := rfl
  have hcalls : ∀ c ∈ [Call.render (Diagram.ofText (noteText "x:label"))], (c : Call Float).OfText := by
    intro c hc
    rw [List.mem_singleton] at hc
    exact hc ▸ Diagram.ofText_ofText _
  have hagree := (renderText_eq_anew_iff (fun _ => ⟨0, 0⟩) default _ hcalls htext').mp heq
  have hstart : (start (fun _ => ⟨0, 0⟩) default : Session Float).Tidy := Tidy.start _ _
  have hold (key : String) : key ∈ (labelled.timelineStage ["a"]).picture.notes ↔
      Note.key 0 ⟨["a"], "x:label"⟩ = key := by
    have hshown : labelled =
        ((start (fun _ => ⟨0, 0⟩) default).renderSequence (oneNote "x:label")).state :=
      renderText_of_sequence htext _
    have hstage : (labelled.timelineStage ["a"]).picture = labelled.picture.timelineOrEmpty := by
      rw [hshown]
      exact hstart.timelineStage_renderSequence (oneNote "x:label")
    rw [hstage, hshown]
    exact hstart.mem_notes_oneNote
  have hnew (key : String) : key ∈ (labelled.anew.renderText (noteText "x")).1.picture.timelineOrEmpty.notes ↔
      Note.key 0 ⟨["a"], "x"⟩ = key := by
    rw [renderText_of_sequence htext']
    exact (Tidy.start _ _).mem_notes_oneNote
  have hkey : Note.key 0 ⟨["a"], "x:label"⟩ = Note.key 0 ⟨["a"], "x"⟩ ++ ":label" := by
    simp [Note.key, ← String.toList_inj]
  have hgone : Note.key 0 ⟨["a"], "x:label"⟩ ∉
      (labelled.anew.renderText (noteText "x")).1.picture.timelineOrEmpty.notes := by
    rw [hnew, hkey]
    simp [← String.toList_inj]
  exact (hagree.apart _ ((hold _).mpr rfl) hgone _ ((hnew _).mpr rfl)).1 hkey

end Session

end LiveDiagram
