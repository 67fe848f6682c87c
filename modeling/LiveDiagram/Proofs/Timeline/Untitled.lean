import LiveDiagram.Proofs.Stage.Refusals
import LiveDiagram.Proofs.Timeline.Rendering

namespace LiveDiagram

variable {α : Type}

namespace TimelineStage

open Stage

section Alike

variable {torn : String → Prop} {s t : TimelineStage α}

/-- Removing a message leaves stages that refuse different ids in agreement,
    since nothing refuses an erasure. -/
theorem agreeBut_removeMessage (h : AgreeBut torn s t) (key : String) :
    AgreeBut torn (s.removeMessage key) (t.removeMessage key) := by
  cases hm : s.picture.messages[key]? with
  | none =>
    have hm' : t.picture.messages[key]? = none := by rw [h.picture, hm]
    rwa [removeMessage_of_getElem?_eq_none hm, removeMessage_of_getElem?_eq_none hm']
  | some m =>
    have hm' : t.picture.messages[key]? = some m := by rw [h.picture, hm]
    rw [removeMessage_of_getElem? hm, removeMessage_of_getElem? hm']
    exact (h.mapPicture fun t => t.withoutMessage key).eraseParts _

/-- Removing a note leaves stages that refuse different ids in agreement. -/
theorem agreeBut_removeNote (h : AgreeBut torn s t) (key : String) :
    AgreeBut torn (s.removeNote key) (t.removeNote key) := by
  cases hn : s.picture.notes[key]? with
  | none =>
    have hn' : t.picture.notes[key]? = none := by rw [h.picture, hn]
    rwa [removeNote_of_getElem?_eq_none hn, removeNote_of_getElem?_eq_none hn']
  | some n =>
    have hn' : t.picture.notes[key]? = some n := by rw [h.picture, hn]
    rw [removeNote_of_getElem? hn, removeNote_of_getElem? hn']
    exact (h.mapPicture fun t => t.withoutNote key).eraseParts _

/-- Removing a participant leaves stages that refuse different ids in
    agreement. -/
theorem agreeBut_removeParticipant (h : AgreeBut torn s t) (id : String) :
    AgreeBut torn (s.removeParticipant id) (t.removeParticipant id) := by
  unfold removeParticipant
  rw [h.picture]
  split
  · exact h
  · rename_i p _
    have hmessages : AgreeBut torn (p.messageKeys.foldl removeMessage s)
        (p.messageKeys.foldl removeMessage t) :=
      h.foldl fun key _ _ _ h => agreeBut_removeMessage h key
    have hnotes : AgreeBut torn (p.noteKeys.foldl removeNote (p.messageKeys.foldl removeMessage s))
        (p.noteKeys.foldl removeNote (p.messageKeys.foldl removeMessage t)) :=
      hmessages.foldl fun key _ _ _ h => agreeBut_removeNote h key
    exact (hnotes.eraseParts (ParticipantItem.partIds id)).mapPicture
      fun t => { t with participants := t.participants.erase id }

variable [Scalar α]

/-- A participant is put alike on both stages, if it is torn as a whole or not
    at all. -/
theorem agreeBut_placeParticipant (h : AgreeBut torn s t) (spacing : α) {spec : Participant}
    (index : Nat) (htorn : TornTogether torn (ParticipantItem.partIds spec.id)) :
    AgreeBut torn (s.placeParticipant spacing spec index).state
      (t.placeParticipant spacing spec index).state := by
  obtain ⟨⟨surface, rfl⟩, hsurface⟩ := h
  rw [placeParticipant_eq, placeParticipant_eq]
  refine AgreeBut.draw ?_ ?_
  · exact ⟨⟨surface, rfl⟩, hsurface⟩
  · rwa [ParticipantItem.ids_marks]

/-- A message is put alike on both stages, if it is torn as a whole or not at
    all. -/
theorem agreeBut_placeMessage (h : AgreeBut torn s t) {spec : Message} {index : Nat}
    (htorn : TornTogether torn (MessageItem.partIds (spec.key index))) :
    AgreeBut torn (s.placeMessage spec index).state (t.placeMessage spec index).state := by
  obtain ⟨⟨surface, rfl⟩, hsurface⟩ := h
  rw [placeMessage_eq, placeMessage_eq]
  refine AgreeBut.draw ?_ ?_
  · exact ⟨⟨surface, rfl⟩, hsurface⟩
  · rwa [MessageItem.ids_marks]

/-- A note is put alike on both stages, if it is torn as a whole or not at
    all. -/
theorem agreeBut_placeNote (h : AgreeBut torn s t) (messages : Nat) {spec : Note}
    (present : List String) {index : Nat}
    (htorn : TornTogether torn (NoteItem.partIds (spec.key index))) :
    AgreeBut torn (s.placeNote messages spec present index).state
      (t.placeNote messages spec present index).state := by
  obtain ⟨⟨surface, rfl⟩, hsurface⟩ := h
  rw [placeNote_eq, placeNote_eq]
  refine AgreeBut.draw ?_ ?_
  · exact ⟨⟨surface, rfl⟩, hsurface⟩
  · rwa [NoteItem.ids_marks]

theorem placeMessages_eq (s : TimelineStage α) (d : Sequence) :
    s.placeMessages d =
      (((presentMessages s.picture d).foldl messagePhase.put s).picture.messages.keys.filter fun key =>
        !(presentMessages s.picture d).any fun x => x.1.key x.2 == key).foldl removeMessage
          ((presentMessages s.picture d).foldl messagePhase.put s) :=
  rfl

/-- The messages of a diagram are placed alike, each being torn as a whole or
    not at all. -/
theorem agreeBut_placeMessages (h : AgreeBut torn s t) (d : Sequence)
    (htorn : ∀ key, TornTogether torn (MessageItem.partIds key)) :
    AgreeBut torn (s.placeMessages d) (t.placeMessages d) := by
  have hput : AgreeBut torn ((presentMessages s.picture d).foldl messagePhase.put s)
      ((presentMessages s.picture d).foldl messagePhase.put t) :=
    h.foldl fun x _ _ _ h => agreeBut_placeMessage h (htorn (x.1.key x.2))
  rw [placeMessages_eq, placeMessages_eq, h.picture, hput.picture]
  exact hput.foldl fun key _ _ _ h => agreeBut_removeMessage h key

theorem placeNotes_eq (s : TimelineStage α) (d : Sequence) :
    s.placeNotes d =
      (((presentNotes s.picture d).foldl (notePhase d.messages.length).put s).picture.notes.keys.filter
        fun key => !(presentNotes s.picture d).any fun x => x.1.key x.2.2 == key).foldl removeNote
          ((presentNotes s.picture d).foldl (notePhase d.messages.length).put s) :=
  rfl

/-- The notes of a diagram are placed alike, each being torn as a whole or not
    at all. -/
theorem agreeBut_placeNotes (h : AgreeBut torn s t) (d : Sequence)
    (htorn : ∀ key, TornTogether torn (NoteItem.partIds key)) :
    AgreeBut torn (s.placeNotes d) (t.placeNotes d) := by
  have hput : AgreeBut torn ((presentNotes s.picture d).foldl (notePhase d.messages.length).put s)
      ((presentNotes s.picture d).foldl (notePhase d.messages.length).put t) :=
    h.foldl fun x _ _ _ h => agreeBut_placeNote h d.messages.length x.2.1 (htorn (x.1.key x.2.2))
  rw [placeNotes_eq, placeNotes_eq, h.picture, hput.picture]
  exact hput.foldl fun key _ _ _ h => agreeBut_removeNote h key

/-- The stage with all of a diagram but its title, and with nothing else. -/
def untitled (s : TimelineStage α) (d : Sequence) : TimelineStage α :=
  (s.removeStaleParticipants (d.participants.map Participant.id)).withNotes d

/-- Participants, messages and notes are rendered alike, each of them being torn
    as a whole if it is torn. The title comes later. -/
theorem agreeBut_untitled (h : AgreeBut torn s t) (d : Sequence)
    (hparticipant : ∀ id, TornTogether torn (ParticipantItem.partIds id))
    (hmessage : ∀ key, TornTogether torn (MessageItem.partIds key))
    (hnote : ∀ key, TornTogether torn (NoteItem.partIds key)) :
    AgreeBut torn (s.untitled d) (t.untitled d) := by
  have hpruned : AgreeBut torn (s.removeStaleParticipants (d.participants.map Participant.id))
      (t.removeStaleParticipants (d.participants.map Participant.id)) := by
    unfold removeStaleParticipants
    rw [h.picture]
    exact h.foldl fun id _ _ _ h => agreeBut_removeParticipant h id
  have hplaced : AgreeBut torn
      ((s.removeStaleParticipants (d.participants.map Participant.id)).placeParticipants d)
      ((t.removeStaleParticipants (d.participants.map Participant.id)).placeParticipants d) :=
    hpruned.foldl fun p _ _ _ h => agreeBut_placeParticipant h _ p.2 (hparticipant p.1.id)
  exact agreeBut_placeNotes (agreeBut_placeMessages hplaced d hmessage) d hnote

end Alike

section Title

variable (s : TimelineStage α) (d : Sequence)

/-- The diagram has a title that the surface refuses. -/
def RefusesTitle : Prop :=
  d.title ≠ "" ∧ Part.title.id ∈ s.surface.refused

theorem removeParticipant_store (id : String) : (s.removeParticipant id).store = s.store := by
  unfold removeParticipant
  split
  · rfl
  · rename_i p _
    have hmessages := SameFrame.foldl removeMessage_frame p.messageKeys s
    exact (hmessages.trans (SameFrame.foldl removeNote_frame p.noteKeys _)).store

variable [Scalar α]

/-- Placing messages leaves all but messages and notes as it is, whatever the
    surface refuses. -/
theorem placeMessages_frame : SameFrame s (s.placeMessages d) := by
  rw [placeMessages_eq]
  exact (SameFrame.foldl messagePhase.put_frame _ s).trans (SameFrame.foldl messagePhase.remove_frame _ _)

/-- Placing notes leaves all but messages and notes as it is, whatever the
    surface refuses. -/
theorem placeNotes_frame : SameFrame s (s.placeNotes d) := by
  rw [placeNotes_eq]
  exact (SameFrame.foldl (notePhase d.messages.length).put_frame _ s).trans
    (SameFrame.foldl (notePhase d.messages.length).remove_frame _ _)

theorem untitled_sameSetup : SameSetup s (s.untitled d) := by
  have hplaced := (s.removeStaleParticipants_sameSetup (d.participants.map Participant.id)).trans
    (placeParticipants_sameSetup _ d)
  exact hplaced.trans ((placeMessages_sameSetup _ d).trans (placeNotes_sameSetup _ d))

/-- Nothing but the loading of the positions happens to the store before the
    title is drawn. -/
theorem untitled_store : (s.untitled d).store.load = s.store.load := by
  have hpruned (ids : List String) : (s.removeStaleParticipants ids).store = s.store :=
    foldl_view Stage.store removeParticipant_store _ s
  have hplaced (s : TimelineStage α) : (s.placeParticipants d).store.load = s.store.load := by
    refine foldl_view (fun s : TimelineStage α => s.store.load) (fun s p => ?_) _ s
    exact (congrArg Store.load (s.placeParticipant_store _ p.1 p.2)).trans s.store.load_load
  unfold untitled withNotes withMessages
  rw [(placeNotes_frame _ d).store, (placeMessages_frame _ d).store, hplaced, hpruned]

variable {s d}

/-- A rendering stops at a title that is refused, with everything else done that
    is to be drawn. The title is drawn last, and it is the only thing whose
    refusal stops a rendering; no place is recorded then. -/
theorem render_of_refusesTitle (h : s.RefusesTitle d) :
    s.render d =
      { state := (s.untitled d).set { (s.untitled d).picture with title := d.title }
        refusal := some ⟨Part.title.id⟩ } := by
  obtain ⟨htitle, hrefused⟩ := h
  have hempty : d.title.isEmpty = false := by simpa using htitle
  rw [← (s.untitled_sameSetup d).refused] at hrefused
  have hcontains : (s.untitled d).surface.refused.contains Part.title.id = true :=
    List.contains_iff_mem.mpr hrefused
  have hdrawn : ((s.untitled d).set { (s.untitled d).picture with title := d.title }).drawTitle =
      { state := (s.untitled d).set { (s.untitled d).picture with title := d.title }
        refusal := some ⟨Part.title.id⟩ } := by
    unfold drawTitle Timeline.titleMarks Stage.draw set
    dsimp only
    rw [hempty]
    simp only [Bool.false_eq_true, if_false, Surface.draw, hcontains, if_true]
  unfold render
  exact congrArg (Outcome.andThen · _) hdrawn

variable (s d) in
/-- The stage with the title drawn as well. -/
def titled : TimelineStage α :=
  ((s.untitled d).set { (s.untitled d).picture with title := d.title }).drawTitle.state

variable (s d) in
/-- The stage with all participants recorded. -/
def recorded : TimelineStage α :=
  (s.titled d).picture.participants.keys.foldl persistParticipant (s.titled d)

/-- A title that is not refused is drawn, and then all participants are recorded
    and their order is noted. -/
theorem render_eq_of_not_refusesTitle (h : ¬ s.RefusesTitle d) :
    s.render d = .done
      ((s.recorded d).set { (s.recorded d).picture with order := d.participants.map Participant.id }) := by
  let t : TimelineStage α := (s.untitled d).set { (s.untitled d).picture with title := d.title }
  have hdrawn : t.drawTitle.refusal = none := by
    have hrefused := (s.untitled_sameSetup d).refused
    unfold drawTitle Timeline.titleMarks Stage.draw
    dsimp only
    split
    · rfl
    · rename_i hempty
      have htitle : d.title ≠ "" := by simpa [t, set] using hempty
      have hnot : Part.title.id ∉ t.surface.refused := by
        rw [show t.surface.refused = s.surface.refused from hrefused]
        exact fun hmem => h ⟨htitle, hmem⟩
      simp [Surface.draw, hnot]
  unfold render
  exact Outcome.andThen_of_refusal_eq_none hdrawn _

theorem recorded_scene (s : TimelineStage α) (d : Sequence) :
    ((s.recorded d).picture, (s.recorded d).surface) = ((s.titled d).picture, (s.titled d).surface) :=
  foldl_view (fun s : TimelineStage α => (s.picture, s.surface)) persistParticipant_scene _ _

/-- Without a refused title a rendering goes on to the end, and draws nothing
    else. What it leaves on the timeline and on the surface is what a refused
    title would have left, and the title. -/
theorem render_of_not_refusesTitle (h : ¬ s.RefusesTitle d) :
    (s.render d).refusal = none ∧
      (s.render d).state.picture =
        { (s.untitled d).picture with
          title := d.title, order := d.participants.map Participant.id } ∧
      ∀ name, name ≠ Part.title.id →
        (s.render d).state.surface.primitives[name]? = (s.untitled d).surface.primitives[name]? := by
  have hscene := s.recorded_scene d
  rw [render_eq_of_not_refusesTitle h]
  refine ⟨rfl, ?_, fun name hname => ?_⟩
  · have hpicture : (s.recorded d).picture = (s.titled d).picture := congrArg Prod.fst hscene
    unfold set
    dsimp only [Outcome.done]
    rw [hpicture]
    rfl
  · let t : TimelineStage α := (s.untitled d).set { (s.untitled d).picture with title := d.title }
    have hsurface : (s.recorded d).surface = t.drawTitle.state.surface := congrArg Prod.snd hscene
    have hother : name ∉ Mark.ids (t.picture.titleMarks t.measure) := by
      rw [Timeline.ids_titleMarks]
      simpa using hname
    have hfound := Surface.draw_getElem?_of_not_mem (s := t.surface) hother
    unfold set
    dsimp only [Outcome.done]
    rw [hsurface]
    exact hfound

end Title

end TimelineStage

end LiveDiagram
