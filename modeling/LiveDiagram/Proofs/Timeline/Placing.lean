import LiveDiagram.Proofs.Timeline.Drawing
import LiveDiagram.Proofs.Timeline.Phases

namespace LiveDiagram

variable {α : Type}

namespace TimelineStage

section Removal

variable (s : TimelineStage α) (key : String)

/-- Removing a message leaves all but messages and notes as it is. -/
theorem removeMessage_frame : SameFrame s (s.removeMessage key) := by
  refine ⟨s.removeMessage_sameSetup key, fun id => ?_, ?_, ?_⟩
  · rw [removeMessage_picture]
    exact s.picture.withoutMessage_bare? key id
  · rw [removeMessage_picture]
    exact s.picture.withoutMessage_title key
  · unfold removeMessage
    split <;> rfl

/-- Removing a message erases its parts, if it is there, and nothing else. -/
theorem removeMessage_found (name : String) :
    (s.removeMessage key).surface.primitives[name]? =
      if s.picture.messages[key]?.isSome ∧ name ∈ MessageItem.partIds key then none
      else s.surface.primitives[name]? := by
  cases hm : s.picture.messages[key]? with
  | none => simp [removeMessage_of_getElem?_eq_none hm]
  | some m =>
    rw [removeMessage_of_getElem? hm]
    simp [Stage.eraseParts, Surface.foldl_erase_getElem?]

/-- Removing a note leaves all but messages and notes as it is. -/
theorem removeNote_frame : SameFrame s (s.removeNote key) := by
  refine ⟨s.removeNote_sameSetup key, fun id => ?_, ?_, ?_⟩
  · rw [removeNote_picture]
    exact s.picture.withoutNote_bare? key id
  · rw [removeNote_picture]
    exact s.picture.withoutNote_title key
  · unfold removeNote
    split <;> rfl

/-- Removing a note erases its parts, if it is there, and nothing else. -/
theorem removeNote_found (name : String) :
    (s.removeNote key).surface.primitives[name]? =
      if s.picture.notes[key]?.isSome ∧ name ∈ NoteItem.partIds key then none
      else s.surface.primitives[name]? := by
  cases hn : s.picture.notes[key]? with
  | none => simp [removeNote_of_getElem?_eq_none hn]
  | some n =>
    rw [removeNote_of_getElem? hn]
    simp [Stage.eraseParts, Surface.foldl_erase_getElem?]

end Removal

variable [Scalar α]

section Messages

variable (s : TimelineStage α) (spec : Message) (index : Nat)

/-- Putting a message leaves all but messages and notes as it is, stopped or
    not. -/
theorem placeMessage_frame : SameFrame s (s.placeMessage spec index).state := by
  have hrest := s.picture.withMessage_sameRest (spec.key index) spec
    (placedMessage s.picture spec index)
  refine ⟨s.placeMessage_sameSetup spec index, fun id => ?_, ?_, ?_⟩
  · rw [placeMessage_eq]
    exact s.picture.withMessage_bare? _ _ _ id
  · rw [placeMessage_eq]
    exact hrest.title
  · rw [placeMessage_eq]
    rfl

/-- A message that is put is seen under its own key and nowhere else. -/
theorem placeMessage_messages (key : String) :
    (s.placeMessage spec index).state.picture.messages[key]? =
      if spec.key index = key then some (placedMessage s.picture spec index)
      else s.picture.messages[key]? := by
  rw [placeMessage_eq]
  exact s.picture.withMessage_getElem? _ _ _ _

theorem placeMessage_notes : (s.placeMessage spec index).state.picture.notes = s.picture.notes := by
  rw [placeMessage_eq]
  exact (s.picture.withMessage_sameRest _ _ _).notes

end Messages

/-- The marks of a message as a diagram states it. -/
def messageMarks (s : TimelineStage α) (spec : Message) (index : Nat) : List (Mark α) :=
  (placedMessage s.picture spec index).marks s.measure (spec.key index)
    (s.picture.centerOf (placedMessage s.picture spec index).message.source)
    (s.picture.centerOf (placedMessage s.picture spec index).message.target)

/-- What a message becomes depends on what was there under its key and on
    nothing else. -/
theorem placedMessage_congr {t u : Timeline α} {spec : Message} {index : Nat}
    (h : u.messages[spec.key index]? = t.messages[spec.key index]?) :
    placedMessage u spec index = placedMessage t spec index := by
  unfold placedMessage
  rw [h]

/-- The messages, with their indices, as a phase of a rendering: what is put
    under one key does not depend on what is there under another. -/
def messagePhase : Phase α (Message × Nat) (MessageItem α) where
  lookup s key := s.picture.messages[key]?
  key x := x.1.key x.2
  value s x := placedMessage s.picture x.1 x.2
  marks s x := s.messageMarks x.1 x.2
  partIds := MessageItem.partIds
  put s x := (s.placeMessage x.1 x.2).state
  remove := removeMessage
  ids_marks s x := MessageItem.ids_marks _ _ _ _ _
  put_frame s x := s.placeMessage_frame x.1 x.2
  put_lookup s x key := s.placeMessage_messages x.1 x.2 key
  put_found s x name haccepts := by
    rw [placeMessage_eq]
    exact haccepts.draw_getElem? (s.messageMarks x.1 x.2) name
  put_value s x y hne := by
    refine placedMessage_congr ?_
    rw [placeMessage_messages, if_neg hne]
  put_marks s x y hne := by
    have hframe := s.placeMessage_frame x.1 x.2
    have hplaced : placedMessage (s.placeMessage x.1 x.2).state.picture y.1 y.2 =
        placedMessage s.picture y.1 y.2 := by
      refine placedMessage_congr ?_
      rw [placeMessage_messages, if_neg hne]
    unfold messageMarks
    rw [hplaced, hframe.setup.measure, Timeline.centerOf_congr hframe.bare]
  remove_frame := removeMessage_frame
  remove_lookup s key other := by
    rw [removeMessage_picture]
    exact s.picture.withoutMessage_getElem? key other
  remove_found := removeMessage_found

section Notes

variable (s : TimelineStage α) (messages : Nat) (spec : Note) (present : List String) (index : Nat)

/-- Putting a note leaves all but messages and notes as it is, stopped or
    not. -/
theorem placeNote_frame : SameFrame s (s.placeNote messages spec present index).state := by
  have hrest := s.picture.withNote_sameRest (spec.key index) present
    (s.placedNote messages spec present index)
  refine ⟨s.placeNote_sameSetup messages spec present index, fun id => ?_, ?_, ?_⟩
  · rw [placeNote_eq]
    exact s.picture.withNote_bare? _ _ _ id
  · rw [placeNote_eq]
    exact hrest.title
  · rw [placeNote_eq]
    rfl

/-- A note that is put is seen under its own key and nowhere else. -/
theorem placeNote_notes (key : String) :
    (s.placeNote messages spec present index).state.picture.notes[key]? =
      if spec.key index = key then some (s.placedNote messages spec present index)
      else s.picture.notes[key]? := by
  rw [placeNote_eq]
  exact s.picture.withNote_getElem? _ _ _ _

theorem placeNote_messages :
    (s.placeNote messages spec present index).state.picture.messages = s.picture.messages := by
  rw [placeNote_eq]
  exact (s.picture.withNote_sameRest _ _ _).messages

end Notes

/-- What a note becomes depends on what was there under its key and on the bare
    participants. -/
theorem placedNote_congr {s t : TimelineStage α} {messages : Nat} {spec : Note}
    {present : List String} {index : Nat} (hmeasure : t.measure = s.measure)
    (hbare : ∀ id, t.picture.bare? id = s.picture.bare? id)
    (h : t.picture.notes[spec.key index]? = s.picture.notes[spec.key index]?) :
    t.placedNote messages spec present index = s.placedNote messages spec present index := by
  have hids : placedIds t.picture spec present index = placedIds s.picture spec present index := by
    unfold placedIds
    rw [h]
  unfold placedNote
  rw [hids, hmeasure, Timeline.noteBox_congr hbare]

/-- Putting a note changes nothing about what a note under another key
    becomes. -/
theorem placedNote_placeNote (s : TimelineStage α) {messages : Nat} {spec spec' : Note}
    (present present' : List String) {index index' : Nat}
    (hne : spec.key index ≠ spec'.key index') :
    (s.placeNote messages spec present index).state.placedNote messages spec' present' index' =
      s.placedNote messages spec' present' index' := by
  have hframe := s.placeNote_frame messages spec present index
  refine placedNote_congr hframe.setup.measure hframe.bare ?_
  rw [placeNote_notes, if_neg hne]

/-- The notes below that many messages, with those of their participants that
    are there and with their indices. -/
def notePhase (messages : Nat) : Phase α (Note × List String × Nat) (NoteItem α) where
  lookup s key := s.picture.notes[key]?
  key x := x.1.key x.2.2
  value s x := s.placedNote messages x.1 x.2.1 x.2.2
  marks s x := (s.placedNote messages x.1 x.2.1 x.2.2).marks (x.1.key x.2.2)
  partIds := NoteItem.partIds
  put s x := (s.placeNote messages x.1 x.2.1 x.2.2).state
  remove := removeNote
  ids_marks s x := NoteItem.ids_marks _ _
  put_frame s x := s.placeNote_frame messages x.1 x.2.1 x.2.2
  put_lookup s x key := s.placeNote_notes messages x.1 x.2.1 x.2.2 key
  put_found s x name haccepts := by
    rw [placeNote_eq]
    exact haccepts.draw_getElem?
      ((s.placedNote messages x.1 x.2.1 x.2.2).marks (x.1.key x.2.2)) name
  put_value s x y hne := s.placedNote_placeNote x.2.1 y.2.1 hne
  put_marks s x y hne := by rw [s.placedNote_placeNote x.2.1 y.2.1 hne]
  remove_frame := removeNote_frame
  remove_lookup s key other := by
    rw [removeNote_picture]
    exact s.picture.withoutNote_getElem? key other
  remove_found := removeNote_found

end TimelineStage

end LiveDiagram
