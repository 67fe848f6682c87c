import LiveDiagram.Proofs.Stage.Alike
import LiveDiagram.Proofs.Timeline.Untitled

namespace LiveDiagram

variable {α : Type} [Scalar α]

/-- Where a participant is put depends on the recorded positions and on nothing
    else of the store. -/
theorem placedBare_congr {store store' : Store α} (h : store'.positions = store.positions) :
    placedBare store' = placedBare store := by
  funext spacing spec index
  simp only [placedBare, Store.node?, h]

namespace TimelineStage

open Stage

variable {s t : TimelineStage α}

theorem alike_removeMessage (h : Alike s t) (key : String) :
    Alike (s.removeMessage key) (t.removeMessage key) := by
  cases hm : s.picture.messages[key]? with
  | none =>
    have hm' : t.picture.messages[key]? = none := by rw [h.picture, hm]
    rwa [removeMessage_of_getElem?_eq_none hm, removeMessage_of_getElem?_eq_none hm']
  | some m =>
    have hm' : t.picture.messages[key]? = some m := by rw [h.picture, hm]
    rw [removeMessage_of_getElem? hm, removeMessage_of_getElem? hm']
    exact (h.mapPicture fun t => t.withoutMessage key).eraseParts _

theorem alike_removeNote (h : Alike s t) (key : String) : Alike (s.removeNote key) (t.removeNote key) := by
  cases hn : s.picture.notes[key]? with
  | none =>
    have hn' : t.picture.notes[key]? = none := by rw [h.picture, hn]
    rwa [removeNote_of_getElem?_eq_none hn, removeNote_of_getElem?_eq_none hn']
  | some n =>
    have hn' : t.picture.notes[key]? = some n := by rw [h.picture, hn]
    rw [removeNote_of_getElem? hn, removeNote_of_getElem? hn']
    exact (h.mapPicture fun t => t.withoutNote key).eraseParts _

/-- Removing a participant keeps stages alike, with the messages and notes that
    go with it. -/
theorem alike_removeParticipant (h : Alike s t) (id : String) :
    Alike (s.removeParticipant id) (t.removeParticipant id) := by
  unfold removeParticipant
  rw [h.picture]
  split
  · exact h
  · rename_i p _
    have hmessages : Alike (p.messageKeys.foldl removeMessage s) (p.messageKeys.foldl removeMessage t) :=
      h.foldl (fun key _ _ h => alike_removeMessage h key) p.messageKeys
    have hnotes : Alike (p.noteKeys.foldl removeNote (p.messageKeys.foldl removeMessage s))
        (p.noteKeys.foldl removeNote (p.messageKeys.foldl removeMessage t)) :=
      hmessages.foldl (fun key _ _ h => alike_removeNote h key) p.noteKeys
    exact (hnotes.eraseParts (ParticipantItem.partIds id)).mapPicture
      fun t => { t with participants := t.participants.erase id }

/-- Putting a participant keeps stages alike: its place is read from the store
    or computed. -/
theorem alike_placeParticipant (h : Alike s t) (spacing : α) (spec : Participant) (index : Nat) :
    Alike (s.placeParticipant spacing spec index).state (t.placeParticipant spacing spec index).state := by
  have hplaced : t.placedParticipant spacing spec index = s.placedParticipant spacing spec index := by
    unfold placedParticipant
    rw [h.picture, placedBare_congr h.positions]
  rw [placeParticipant_eq, placeParticipant_eq, hplaced]
  exact ((h.update (by rw [h.picture]) h.positions_load).draw rfl).state

theorem alike_placeMessage (h : Alike s t) (spec : Message) (index : Nat) :
    Alike (s.placeMessage spec index).state (t.placeMessage spec index).state := by
  rw [placeMessage_eq, placeMessage_eq]
  exact ((h.update (by rw [h.picture]) h.positions).draw (by rw [h.picture, h.measure])).state

/-- Putting a note keeps stages alike: its box is measured, and both stages
    measure in the same way. -/
theorem alike_placeNote (h : Alike s t) (messages : Nat) (spec : Note) (present : List String)
    (index : Nat) :
    Alike (s.placeNote messages spec present index).state
      (t.placeNote messages spec present index).state := by
  have hplaced : t.placedNote messages spec present index = s.placedNote messages spec present index := by
    unfold placedNote
    rw [h.picture, h.measure]
  rw [placeNote_eq, placeNote_eq, hplaced]
  exact ((h.update (by rw [h.picture]) h.positions).draw rfl).state

/-- Putting the messages of a diagram, and removing the others, keeps stages
    alike. -/
theorem alike_placeMessages (h : Alike s t) (d : Sequence) :
    Alike (s.placeMessages d) (t.placeMessages d) := by
  have hput : Alike ((presentMessages s.picture d).foldl messagePhase.put s)
      ((presentMessages s.picture d).foldl messagePhase.put t) :=
    h.foldl (fun x _ _ h => alike_placeMessage h x.1 x.2) _
  rw [placeMessages_eq, placeMessages_eq, h.picture, hput.picture]
  exact hput.foldl (fun key _ _ h => alike_removeMessage h key) _

/-- Putting the notes of a diagram, and removing the others, keeps stages
    alike. -/
theorem alike_placeNotes (h : Alike s t) (d : Sequence) : Alike (s.placeNotes d) (t.placeNotes d) := by
  have hput : Alike ((presentNotes s.picture d).foldl (notePhase d.messages.length).put s)
      ((presentNotes s.picture d).foldl (notePhase d.messages.length).put t) :=
    h.foldl (fun x _ _ h => alike_placeNote h d.messages.length x.1 x.2.1 x.2.2) _
  rw [placeNotes_eq, placeNotes_eq, h.picture, hput.picture]
  exact hput.foldl (fun key _ _ h => alike_removeNote h key) _

/-- All that comes before the title keeps stages alike. -/
theorem alike_untitled (h : Alike s t) (d : Sequence) : Alike (s.untitled d) (t.untitled d) := by
  have hpruned : Alike (s.removeStaleParticipants (d.participants.map Participant.id))
      (t.removeStaleParticipants (d.participants.map Participant.id)) := by
    unfold removeStaleParticipants
    rw [h.picture]
    exact h.foldl (fun id _ _ h => alike_removeParticipant h id) _
  have hplaced : Alike
      ((s.removeStaleParticipants (d.participants.map Participant.id)).placeParticipants d)
      ((t.removeStaleParticipants (d.participants.map Participant.id)).placeParticipants d) :=
    hpruned.foldl (fun p _ _ h => alike_placeParticipant h _ p.1 p.2) _
  exact alike_placeNotes (alike_placeMessages hplaced d) d

/-- Recording a participant keeps stages alike: both record it or neither has
    to. -/
theorem alike_persistParticipant (h : Alike s t) (id : String) :
    Alike (s.persistParticipant id) (t.persistParticipant id) := by
  unfold persistParticipant
  rw [h.picture, h.node?]
  split
  · exact h
  · rename_i p _
    split
    · exact h.update rfl h.positions_load
    · have hset : (t.store.setNode id p.header).positions = (s.store.setNode id p.header).positions := by
        rw [Store.positions_setNode, Store.positions_setNode, h.positions]
      exact h.update rfl hset

/-- Stages that are alike are alike when the same diagram was rendered on both,
    also if its title is refused. Rendering reads the timeline, the recorded
    positions and the measure, and nothing else of a stage. -/
theorem alike_render (h : Alike s t) (d : Sequence) : Outcome.Alike (s.render d) (t.render d) := by
  have huntitled := (alike_untitled h d).mapPicture fun u => { u with title := d.title }
  unfold render
  refine Outcome.Alike.andThen (huntitled.draw ?_) fun u v huv => .done ?_
  · exact congrArg₂ Timeline.titleMarks huntitled.measure huntitled.picture
  · have hrecorded : Alike (u.picture.participants.keys.foldl persistParticipant u)
        (v.picture.participants.keys.foldl persistParticipant v) := by
      rw [huv.picture]
      exact huv.foldl (fun id _ _ h => alike_persistParticipant h id) _
    exact hrecorded.mapPicture fun u => { u with order := d.participants.map Participant.id }

end TimelineStage

end LiveDiagram
