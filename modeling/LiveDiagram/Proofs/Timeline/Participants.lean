import LiveDiagram.Proofs.Sequence.Stated
import LiveDiagram.Proofs.Timeline.Drawing
import LiveDiagram.Proofs.Timeline.Phases

namespace LiveDiagram

variable {α : Type} [Scalar α]

@[simp] theorem placedBare_load (store : Store α) (spacing : α) (spec : Participant) (index : Nat) :
    placedBare store.load spacing spec index = placedBare store spacing spec index := by
  unfold placedBare
  rw [Store.node?_load]

/-- The marks of participants with their indices. -/
def participantMarks (store : Store α) (spacing : α) (specs : List (Participant × Nat)) :
    List (Mark α) :=
  specs.flatMap fun x => (placedBare store spacing x.1 x.2).marks x.1.id

theorem mem_ids_participantMarks {store : Store α} {spacing : α} {specs : List (Participant × Nat)}
    {name : String} : name ∈ Mark.ids (participantMarks store spacing specs) ↔
      ∃ x ∈ specs, name ∈ ParticipantItem.partIds x.1.id := by
  simp only [participantMarks, Mark.mem_ids_flatMap, ParticipantItem.ids_marks]

namespace TimelineStage

section One

variable (s : TimelineStage α) (spacing : α) (spec : Participant) (index : Nat)

/-- A participant is put where the diagram and the store say, and the others
    stay. One that was moved and not recorded is moved back when it is placed
    again. -/
theorem placeParticipant_bare? (id : String) :
    (s.placeParticipant spacing spec index).state.picture.bare? id =
      if spec.id = id then some (placedBare s.store spacing spec index)
      else s.picture.bare? id := by
  rw [placeParticipant_eq]
  exact s.picture.setParticipant_bare? spec.id id _

theorem placeParticipant_store :
    (s.placeParticipant spacing spec index).state.store = s.store.load := by
  rw [placeParticipant_eq]
  rfl

theorem placeParticipant_sameRest :
    Timeline.SameRest s.picture (s.placeParticipant spacing spec index).state.picture := by
  rw [placeParticipant_eq]
  exact ⟨rfl, rfl, rfl, rfl⟩

/-- A participant is drawn where it is put, on a surface that refuses
    nothing. -/
theorem placeParticipant_found {s : TimelineStage α} (haccepts : s.surface.Accepts) (name : String) :
    (s.placeParticipant spacing spec index).state.surface.primitives[name]? =
      Mark.effect ((placedBare s.store spacing spec index).marks spec.id) name
        s.surface.primitives[name]? := by
  rw [placeParticipant_eq]
  exact haccepts.draw_getElem? ((placedBare s.store spacing spec index).marks spec.id) name

end One

section All

variable (spacing : α) (specs : List (Participant × Nat))

/-- The stage with participants placed, given with their indices. -/
def placeAll (s : TimelineStage α) (spacing : α) (specs : List (Participant × Nat)) :
    TimelineStage α :=
  specs.foldl (fun s x => (s.placeParticipant spacing x.1 x.2).state) s

/-- The participants of a diagram are placed one after the other, each with its
    index. -/
theorem placeParticipants_eq (s : TimelineStage α) (d : Sequence) :
    s.placeParticipants d = s.placeAll d.config.participantSpacing d.participants.zipIdx :=
  rfl

/-- Participants are drawn one after the other where they are put. What the
    store says is the same for all of them, since none is recorded on the
    way. -/
theorem placeAll_found {s : TimelineStage α} (haccepts : s.surface.Accepts) (name : String) :
    (s.placeAll spacing specs).surface.primitives[name]? =
      Mark.effect (participantMarks s.store spacing specs) name s.surface.primitives[name]? := by
  unfold placeAll
  induction specs generalizing s with
  | nil => rfl
  | cons x specs ih =>
    have hsetup := s.placeParticipant_sameSetup spacing x.1 x.2
    have hmarks : participantMarks (s.placeParticipant spacing x.1 x.2).state.store spacing specs =
        participantMarks s.store spacing specs := by
      simp only [participantMarks, placeParticipant_store, placedBare_load]
    rw [List.foldl_cons, ih (hsetup.accepts haccepts), hmarks,
      placeParticipant_found spacing x.1 x.2 haccepts, ← Mark.effect_append]
    rfl

/-- What participants are placed where does not depend on those that were there,
    if these are placed anew. -/
theorem placeAll_bare?_congr {s t : TimelineStage α} (hstore : t.store = s.store) {id : String}
    (hid : id ∈ specs.map (·.1.id) ∨ t.picture.bare? id = s.picture.bare? id) :
    (t.placeAll spacing specs).picture.bare? id = (s.placeAll spacing specs).picture.bare? id := by
  unfold placeAll
  induction specs generalizing s t with
  | nil => exact hid.resolve_left (by simp)
  | cons x specs ih =>
    rw [List.foldl_cons, List.foldl_cons]
    refine ih ?_ ?_
    · rw [placeParticipant_store, placeParticipant_store, hstore]
    · rw [placeParticipant_bare?, placeParticipant_bare?, hstore]
      by_cases hx : x.1.id = id
      · exact .inr (by rw [if_pos hx, if_pos hx])
      · rw [if_neg hx, if_neg hx]
        refine hid.imp_left fun hmem => ?_
        exact (List.mem_cons.mp hmem).resolve_left (Ne.symm hx)

/-- After participants are placed, those are there that were placed or were
    there before. -/
theorem mem_placeAll {s : TimelineStage α} {id : String} :
    id ∈ (s.placeAll spacing specs).picture.participants ↔
      id ∈ specs.map (·.1.id) ∨ id ∈ s.picture.participants := by
  unfold placeAll
  induction specs generalizing s with
  | nil => simp
  | cons x specs ih =>
    rw [List.foldl_cons, ih, Timeline.mem_participants_iff, placeParticipant_bare?,
      Timeline.mem_participants_iff]
    by_cases hx : x.1.id = id
    · simp [hx]
    · simp [hx, Ne.symm hx]

theorem placeAll_sameRest (s : TimelineStage α) :
    Timeline.SameRest s.picture (s.placeAll spacing specs).picture := by
  unfold placeAll
  induction specs generalizing s with
  | nil => exact ⟨rfl, rfl, rfl, rfl⟩
  | cons x specs ih =>
    have hfirst := s.placeParticipant_sameRest spacing x.1 x.2
    have hrest := ih (s.placeParticipant spacing x.1 x.2).state
    exact ⟨hrest.messages.trans hfirst.messages, hrest.notes.trans hfirst.notes,
      hrest.title.trans hfirst.title, hrest.order.trans hfirst.order⟩

end All

end TimelineStage

end LiveDiagram
