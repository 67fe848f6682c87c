import LiveDiagram.Proofs.Source.Keys
import LiveDiagram.Proofs.Timeline.Participants
import LiveDiagram.Proofs.Timeline.Placing

namespace LiveDiagram

variable {α : Type}

/-- No two items of a list have the same index. -/
theorem pairwise_zipIdx {ι : Type} (items : List ι) : items.zipIdx.Pairwise fun x y => x.2 ≠ y.2 := by
  have hindices : (items.zipIdx.map Prod.snd).Nodup := by
    rw [List.zipIdx_map_snd]
    exact List.nodup_range'
  exact List.pairwise_map.mp hindices

namespace TimelineStage

/-- The messages that are present are those between participants that are
    there. -/
theorem mem_presentMessages {t : Timeline α} {d : Sequence} {x : Message × Nat} :
    x ∈ presentMessages t d ↔
      x ∈ d.messages.zipIdx ∧ x.1.source ∈ t.participants ∧ x.1.target ∈ t.participants := by
  simp [presentMessages, List.mem_filter]

theorem mem_of_mem_presentMessages {t : Timeline α} {d : Sequence} {x : Message × Nat}
    (hx : x ∈ presentMessages t d) : x.1 ∈ d.messages :=
  List.fst_mem_of_mem_zipIdx (mem_presentMessages.mp hx).1

/-- The notes that are present are those over some participant that is there. -/
theorem exists_presentNotes {t : Timeline α} {d : Sequence} {n : Note} {index : Nat} :
    (∃ ids, (n, ids, index) ∈ presentNotes t d) ↔
      (n, index) ∈ d.notes.zipIdx ∧ ∃ id ∈ n.participants, id ∈ t.participants := by
  simp [presentNotes, List.mem_filter, List.filter_eq_nil_iff]

theorem presentMessages_congr {t u : Timeline α} (h : ∀ id, u.bare? id = t.bare? id) (d : Sequence) :
    presentMessages u d = presentMessages t d := by
  unfold presentMessages
  rw [Timeline.contains_congr h]

/-- Which notes are present, and over whom, depends on the bare participants
    only. -/
theorem presentNotes_congr {t u : Timeline α} (h : ∀ id, u.bare? id = t.bare? id) (d : Sequence) :
    presentNotes u d = presentNotes t d := by
  unfold presentNotes
  rw [Timeline.contains_congr h]

/-- No two messages of a diagram have the same key, since the index is part of
    the key. -/
theorem nodup_messageKeys (t : Timeline α) (d : Sequence) :
    ((presentMessages t d).map fun x => x.1.key x.2).Nodup := by
  refine List.pairwise_map.mpr (((pairwise_zipIdx d.messages).filter _).imp fun hne heq => hne ?_)
  exact Message.index_eq_of_key_eq heq

theorem pairwise_presentNotes (t : Timeline α) (d : Sequence) :
    (presentNotes t d).Pairwise fun x y => x.2.2 ≠ y.2.2 :=
  List.Pairwise.filter _ (List.pairwise_map.mpr (pairwise_zipIdx d.notes))

/-- No two notes of a diagram have the same key, since the index is part of the
    key. -/
theorem nodup_noteKeys (t : Timeline α) (d : Sequence) :
    ((presentNotes t d).map fun x => x.1.key x.2.2).Nodup :=
  List.pairwise_map.mpr ((pairwise_presentNotes t d).imp fun hne heq =>
    hne (Note.index_eq_of_key_eq heq))

/-- The diagram has all participants of the timeline. -/
def CoveredBy (s : TimelineStage α) (d : Sequence) : Prop :=
  ∀ id ∈ s.picture.participants, id ∈ d.participants.map Participant.id

/-- Nothing is removed where all participants are to stay. -/
theorem removeStaleParticipants_of_subset {s : TimelineStage α} {ids : List String}
    (hids : ∀ id ∈ s.picture.participants, id ∈ ids) : s.removeStaleParticipants ids = s := by
  have hnone : (s.picture.participants.keys.filter fun id => !ids.contains id) = [] := by
    rw [List.filter_eq_nil_iff]
    intro id hid
    simpa using hids id (Std.ExtTreeMap.mem_keys.mp hid)
  unfold removeStaleParticipants
  rw [hnone]
  rfl

variable [Scalar α]

/-- Placing the messages of a diagram is a phase with the messages that are
    present. -/
theorem placeMessages_ran {s : TimelineStage α} (haccepts : s.surface.Accepts) (d : Sequence) :
    messagePhase.Ran s (presentMessages s.picture d) (s.placeMessages d) := by
  refine messagePhase.ran haccepts (nodup_messageKeys s.picture d) fun k => ?_
  simp [messagePhase, List.mem_filter]

/-- Placing the notes of a diagram is a phase with the notes that are
    present. -/
theorem placeNotes_ran {s : TimelineStage α} (haccepts : s.surface.Accepts) (d : Sequence) :
    (notePhase d.messages.length).Ran s (presentNotes s.picture d) (s.placeNotes d) := by
  refine (notePhase d.messages.length).ran haccepts (nodup_noteKeys s.picture d) fun k => ?_
  simp [notePhase, List.mem_filter]

theorem placeMessages_notes (s : TimelineStage α) (d : Sequence) :
    (s.placeMessages d).picture.notes = s.picture.notes := by
  have hput := foldl_view (fun s : TimelineStage α => s.picture.notes)
    (fun s (x : Message × Nat) => s.placeMessage_notes x.1 x.2) (presentMessages s.picture d) s
  have hremove (s : TimelineStage α) (key : String) :
      (s.removeMessage key).picture.notes = s.picture.notes := by
    rw [removeMessage_picture, Timeline.withoutMessage_notes]
  exact (foldl_view (fun s : TimelineStage α => s.picture.notes) hremove _ _).trans hput

theorem placeNotes_messages (s : TimelineStage α) (d : Sequence) :
    (s.placeNotes d).picture.messages = s.picture.messages := by
  have hput := foldl_view (fun s : TimelineStage α => s.picture.messages)
    (fun s (x : Note × List String × Nat) =>
      s.placeNote_messages d.messages.length x.1 x.2.1 x.2.2) (presentNotes s.picture d) s
  have hremove (s : TimelineStage α) (key : String) :
      (s.removeNote key).picture.messages = s.picture.messages := by
    rw [removeNote_picture, Timeline.withoutNote_messages]
  exact (foldl_view (fun s : TimelineStage α => s.picture.messages) hremove _ _).trans hput

/-- The stage with the participants and the messages of a diagram. -/
def withMessages (s : TimelineStage α) (d : Sequence) : TimelineStage α :=
  (s.placeParticipants d).placeMessages d

/-- The stage with all of a diagram but its title. -/
def withNotes (s : TimelineStage α) (d : Sequence) : TimelineStage α :=
  (s.withMessages d).placeNotes d

/-- The timeline that a diagram leaves. -/
def rendered (s : TimelineStage α) (d : Sequence) : Timeline α :=
  { (s.withNotes d).picture with title := d.title, order := d.participants.map Participant.id }

section Render

variable {s : TimelineStage α} {d : Sequence}

/-- Recording a place touches neither the timeline nor the surface. -/
theorem persistParticipant_scene (s : TimelineStage α) (id : String) :
    ((s.persistParticipant id).picture, (s.persistParticipant id).surface) =
      (s.picture, s.surface) := by
  unfold persistParticipant
  split
  · rfl
  · split <;> rfl

/-- A surface that refuses nothing does so after the participants are placed. -/
theorem accepts_placeParticipants (haccepts : s.surface.Accepts) (d : Sequence) :
    (s.placeParticipants d).surface.Accepts :=
  (s.placeParticipants_sameSetup d).accepts haccepts

/-- The messages are put on the timeline with the participants of the
    diagram. -/
theorem withMessages_ran (haccepts : s.surface.Accepts) (d : Sequence) :
    messagePhase.Ran (s.placeParticipants d) (presentMessages (s.placeParticipants d).picture d)
      (s.withMessages d) :=
  placeMessages_ran (accepts_placeParticipants haccepts d) d

/-- The notes are put on the timeline with the messages of the diagram. Which
    notes are present was settled by the participants before. -/
theorem withNotes_ran (haccepts : s.surface.Accepts) (d : Sequence) :
    (notePhase d.messages.length).Ran (s.withMessages d)
      (presentNotes (s.placeParticipants d).picture d) (s.withNotes d) := by
  have hmessages := (withMessages_ran haccepts d).frame
  rw [← presentNotes_congr hmessages.bare]
  exact placeNotes_ran (hmessages.setup.accepts (accepts_placeParticipants haccepts d)) d

theorem withNotes_frame (haccepts : s.surface.Accepts) (d : Sequence) :
    SameFrame (s.placeParticipants d) (s.withNotes d) :=
  (withMessages_ran haccepts d).frame.trans (withNotes_ran haccepts d).frame

theorem withNotes_sameSetup (haccepts : s.surface.Accepts) (d : Sequence) :
    Stage.SameSetup s (s.withNotes d) :=
  (s.placeParticipants_sameSetup d).trans (withNotes_frame haccepts d).setup

/-- Rendering a diagram that has all participants of the timeline, on a surface
    that refuses nothing. It places the participants, goes through a phase for
    the messages and one for the notes, and draws the title; recording the
    places touches neither the timeline nor the surface. -/
theorem render_scene (haccepts : s.surface.Accepts) (hcovered : s.CoveredBy d) :
    (s.render d).state.picture = s.rendered d ∧
      (s.render d).state.surface =
        ((s.withNotes d).surface.draw ((s.rendered d).titleMarks s.measure)).1 := by
  have hsetup := withNotes_sameSetup haccepts d
  let t : TimelineStage α := (s.withNotes d).set { (s.withNotes d).picture with title := d.title }
  have hrefusal : t.drawTitle.refusal = none := by
    have ht : t.surface.Accepts := hsetup.accepts haccepts
    exact ht.draw_refusal _
  let u : TimelineStage α :=
    t.drawTitle.state.picture.participants.keys.foldl persistParticipant t.drawTitle.state
  have hscene : (u.picture, u.surface) = (t.drawTitle.state.picture, t.drawTitle.state.surface) :=
    foldl_view (fun s : TimelineStage α => (s.picture, s.surface)) persistParticipant_scene _ _
  have hrender : (s.render d).state =
      u.set { u.picture with order := d.participants.map Participant.id } := by
    unfold render
    dsimp only
    rw [removeStaleParticipants_of_subset hcovered]
    exact congrArg Outcome.state (Outcome.andThen_of_refusal_eq_none hrefusal _)
  have hpicture : u.picture = t.picture := congrArg Prod.fst hscene
  rw [hrender]
  constructor
  · unfold set
    dsimp only
    rw [hpicture]
    rfl
  · have hmarks : t.picture.titleMarks t.measure = (s.rendered d).titleMarks s.measure := by
      rw [← hsetup.measure]
      rfl
    rw [← hmarks]
    exact congrArg Prod.snd hscene

end Render

end TimelineStage

end LiveDiagram
