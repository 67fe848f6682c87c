import LiveDiagram.Proofs.Session.Calls
import LiveDiagram.Proofs.Timeline.Linked
import LiveDiagram.Proofs.Timeline.Untitled

namespace LiveDiagram

variable {α : Type}

namespace Timeline

/-- The timeline without a participant and the messages and notes that are
    attached to it. -/
def withoutParticipant (t : Timeline α) (id : String) : Timeline α :=
  match t.participants[id]? with
  | none => t
  | some p =>
    let t := p.noteKeys.foldl withoutNote (p.messageKeys.foldl withoutMessage t)
    { t with participants := t.participants.erase id }

/-- Without some messages, the other ones end where they did. -/
theorem foldl_withoutMessage_hasMessageAt (t : Timeline α) (keys : List String) {key id : String} :
    (keys.foldl withoutMessage t).HasMessageAt key id ↔ key ∉ keys ∧ t.HasMessageAt key id := by
  induction keys generalizing t with
  | nil => simp
  | cons first keys ih =>
    rw [List.foldl_cons, ih, withoutMessage_hasMessageAt, List.mem_cons, not_or]
    tauto

/-- Without some notes, the other ones are over the participants they were
    over. -/
theorem foldl_withoutNote_hasNoteAt (t : Timeline α) (keys : List String) {key id : String} :
    (keys.foldl withoutNote t).HasNoteAt key id ↔ key ∉ keys ∧ t.HasNoteAt key id := by
  induction keys generalizing t with
  | nil => simp
  | cons first keys ih =>
    rw [List.foldl_cons, ih, withoutNote_hasNoteAt, List.mem_cons, not_or]
    tauto

theorem foldl_withoutMessage_notes (t : Timeline α) (keys : List String) :
    (keys.foldl withoutMessage t).notes = t.notes :=
  foldl_view Timeline.notes (fun t key => t.withoutMessage_notes key) keys t

theorem foldl_withoutNote_messages (t : Timeline α) (keys : List String) :
    (keys.foldl withoutNote t).messages = t.messages :=
  foldl_view Timeline.messages (fun t key => t.withoutNote_messages key) keys t

/-- A timeline without one of its participants is linked. The lists of a
    participant name all that has to go before the participant can. -/
theorem Linked.withoutParticipant {t : Timeline α} (h : t.Linked) (id : String) :
    (t.withoutParticipant id).Linked := by
  unfold Timeline.withoutParticipant
  split
  · exact h
  · rename_i p hp
    have hlinked : (p.noteKeys.foldl Timeline.withoutNote
        (p.messageKeys.foldl Timeline.withoutMessage t)).Linked := by
      refine List.foldlRecOn _ _ ?_ fun u hu key _ => hu.withoutNote key
      exact List.foldlRecOn _ _ h fun u hu key _ => hu.withoutMessage key
    refine hlinked.eraseParticipant (fun key hat => ?_) fun key hat => ?_
    · have hbefore : (p.messageKeys.foldl Timeline.withoutMessage t).HasMessageAt key id := by
        unfold HasMessageAt at hat ⊢
        rwa [foldl_withoutNote_messages] at hat
      obtain ⟨hnot, hat⟩ := (foldl_withoutMessage_hasMessageAt t _).mp hbefore
      exact hnot ((h.messages.mem_iff (messageList?_of_getElem? hp) key).mpr hat)
    · obtain ⟨hnot, hbefore⟩ := (foldl_withoutNote_hasNoteAt _ _).mp hat
      have hat : t.HasNoteAt key id := by
        unfold HasNoteAt at hbefore ⊢
        rwa [foldl_withoutMessage_notes] at hbefore
      exact hnot ((h.notes.mem_iff (noteList?_of_getElem? hp) key).mpr hat)

end Timeline

namespace TimelineStage

variable {s : TimelineStage α}

/-- Removing messages from a stage takes them off the timeline, one after the
    other. -/
theorem foldl_removeMessage_picture (s : TimelineStage α) (keys : List String) :
    (keys.foldl removeMessage s).picture = keys.foldl Timeline.withoutMessage s.picture :=
  (List.foldl_hom Stage.picture fun s key => (removeMessage_picture s key).symm).symm

/-- Removing notes from a stage takes them off the timeline, one after the
    other. -/
theorem foldl_removeNote_picture (s : TimelineStage α) (keys : List String) :
    (keys.foldl removeNote s).picture = keys.foldl Timeline.withoutNote s.picture :=
  (List.foldl_hom Stage.picture fun s key => (removeNote_picture s key).symm).symm

/-- Removing a participant from a stage takes it off the timeline with all that
    is attached to it. -/
theorem removeParticipant_picture (s : TimelineStage α) (id : String) :
    (s.removeParticipant id).picture = s.picture.withoutParticipant id := by
  unfold removeParticipant Timeline.withoutParticipant
  cases s.picture.participants[id]? with
  | none => rfl
  | some p =>
    dsimp only [set, Stage.eraseParts]
    rw [foldl_removeNote_picture, foldl_removeMessage_picture]

/-- The notes that are placed are over different participants, all of which are
    there. -/
theorem presentNotes_spec {t : Timeline α} {d : Sequence} (hd : ∀ n ∈ d.notes, n.participants.Nodup)
    {x : Note × List String × Nat} (hx : x ∈ presentNotes t d) :
    x.2.1.Nodup ∧ ∀ id ∈ x.2.1, id ∈ t.participants := by
  obtain ⟨p, hp, rfl⟩ := List.mem_map.mp (List.mem_of_mem_filter hx)
  refine ⟨(hd p.1 (List.fst_mem_of_mem_zipIdx hp)).filter _, fun id hid => ?_⟩
  exact Std.ExtTreeMap.contains_iff_mem.mp (List.mem_filter.mp hid).2

/-- Items of a phase keep the timeline linked if each does while the
    participants are those of the start: putting an item changes no
    participant. -/
theorem linked_putAll {ι V : Type} (p : Phase α ι V) {items : List ι} (h : s.picture.Linked)
    (hput : ∀ x ∈ items, ∀ u : TimelineStage α, u.picture.Linked →
      (∀ id, id ∈ u.picture.participants ↔ id ∈ s.picture.participants) → (p.put u x).picture.Linked) :
    (items.foldl p.put s).picture.Linked := by
  have hframed : (items.foldl p.put s).picture.Linked ∧ SameFrame s (items.foldl p.put s) := by
    refine List.foldlRecOn (motive := fun u : TimelineStage α => u.picture.Linked ∧ SameFrame s u)
      _ _ ⟨h, .refl s⟩ ?_
    rintro u ⟨hu, hframe⟩ x hx
    refine ⟨hput x hx u hu fun id => ?_, hframe.trans (p.put_frame u x)⟩
    exact Timeline.mem_participants_congr (hframe.bare id)
  exact hframed.1

variable [Scalar α]

/-- Putting a participant keeps the timeline linked: it has the lists that it
    had or empty ones. -/
theorem linked_placeParticipant (h : s.picture.Linked) (spacing : α) (spec : Participant)
    (index : Nat) : (s.placeParticipant spacing spec index).state.picture.Linked := by
  rw [placeParticipant_eq]
  refine h.setParticipant ?_ ?_
  · unfold placedParticipant Timeline.messageList?
    cases s.picture.participants[spec.id]? <;> rfl
  · unfold placedParticipant Timeline.noteList?
    cases s.picture.participants[spec.id]? <;> rfl

/-- Putting a message keeps the timeline linked, if both ends are there. It is
    listed before it is drawn, so this holds also if the surface refuses it. -/
theorem linked_placeMessage (h : s.picture.Linked) {spec : Message} (index : Nat)
    (hsource : spec.source ∈ s.picture.participants) (htarget : spec.target ∈ s.picture.participants) :
    (s.placeMessage spec index).state.picture.Linked := by
  rw [placeMessage_eq]
  refine h.withMessage ⟨spec, index, rfl, ?_⟩ (fun old hold id => ?_) fun hnew id => ⟨?_, ?_⟩
  · unfold placedMessage
    cases s.picture.messages[spec.key index]? <;> exact ⟨rfl, rfl⟩
  · unfold placedMessage
    rw [hold]
    exact Iff.rfl
  · unfold placedMessage
    rw [hnew]
  · rintro (rfl | rfl)
    · exact hsource
    · exact htarget

/-- Putting a note keeps the timeline linked, if its participants are there and
    different, also if the surface refuses it. -/
theorem linked_placeNote (h : s.picture.Linked) (messages : Nat) (spec : Note) {present : List String}
    (index : Nat) (hnodup : present.Nodup) (hthere : ∀ id ∈ present, id ∈ s.picture.participants) :
    (s.placeNote messages spec present index).state.picture.Linked := by
  rw [placeNote_eq]
  refine h.withNote ⟨spec, index, rfl, rfl⟩ (fun old hold => ?_) fun hnew => ⟨?_, hnodup, hthere⟩
  · unfold placedNote placedIds
    rw [hold]
  · unfold placedNote placedIds
    rw [hnew]

/-- Fitting the box of a note keeps the timeline linked. -/
theorem linked_drawNote (h : s.picture.Linked) (key : String) :
    (s.drawNote key).state.picture.Linked := by
  unfold drawNote
  cases hn : s.picture.notes[key]? with
  | none => exact h
  | some n =>
    let n' : NoteItem α :=
      { n with rect := s.picture.noteBox n.note.participants n.y (s.measure n.note.text).height }
    have hput : (s.picture.withNote key [] n').Linked := by
      have hkeyed := h.note_keyed hn
      refine h.withNote hkeyed (fun old hold => ?_) fun hnone => ?_
      · rw [hn] at hold
        cases hold
        rfl
      · rw [hn] at hnone
        cases hnone
    unfold Timeline.withNote at hput
    rw [hn] at hput
    exact hput

/-- Drawing what depends on a participant keeps the timeline linked, wherever it
    stops. -/
theorem linked_updateDependents (h : s.picture.Linked) (id : String) :
    (s.updateDependents id).state.picture.Linked := by
  unfold updateDependents
  split
  · exact h
  · refine Outcome.andThen_state (P := fun t : TimelineStage α => t.picture.Linked) ?_ fun t ht => ht
    refine Outcome.andThen_state (P := fun t : TimelineStage α => t.picture.Linked) ?_ fun t ht => ?_
    · refine Outcome.forEach_state (P := fun t : TimelineStage α => t.picture.Linked) (fun key _ t ht => ?_) h
      unfold drawMessage
      split <;> exact ht
    · exact Outcome.forEach_state (P := fun t : TimelineStage α => t.picture.Linked)
        (fun key _ t ht => linked_drawNote ht key) ht

/-- A participant that moves keeps its lists, and the timeline stays linked. -/
theorem linked_moveParticipant (h : s.picture.Linked) (id : String) (x : α) :
    (s.moveParticipant id x).state.picture.Linked := by
  unfold moveParticipant
  split
  · exact h
  · rename_i p hp
    refine Outcome.andThen_state (P := fun t : TimelineStage α => t.picture.Linked) ?_
      fun t ht => linked_updateDependents ht id
    have hmoved : (s.picture.setParticipant id { p with x }).Linked := by
      refine h.setParticipant ?_ ?_
      · rw [Timeline.messageList?_of_getElem? hp]
        rfl
      · rw [Timeline.noteList?_of_getElem? hp]
        rfl
    unfold drawParticipant
    split <;> exact hmoved

/-- Every edit keeps the timeline linked, also one that the surface stops. -/
theorem linked_edit (h : s.picture.Linked) (e : TimelineEdit α) : (s.edit e).state.picture.Linked := by
  cases e with
  | moveParticipant id x => exact linked_moveParticipant h id x
  | commitParticipant id =>
    unfold edit commitParticipant
    dsimp only [Outcome.done]
    split <;> exact h

/-- Putting the messages of a diagram, and removing the others, keeps the
    timeline linked. Only messages between participants that are there are
    put. -/
theorem linked_placeMessages (h : s.picture.Linked) (d : Sequence) :
    (s.placeMessages d).picture.Linked := by
  have hput : ((presentMessages s.picture d).foldl messagePhase.put s).picture.Linked := by
    refine linked_putAll messagePhase h fun x hx u hu hthere => ?_
    obtain ⟨-, hsource, htarget⟩ := mem_presentMessages.mp hx
    exact linked_placeMessage hu x.2 ((hthere _).mpr hsource) ((hthere _).mpr htarget)
  rw [placeMessages_eq, foldl_removeMessage_picture]
  exact List.foldlRecOn _ _ hput fun t ht key _ => ht.withoutMessage key

/-- Putting the notes of a diagram, and removing the others, keeps the timeline
    linked, if no note names a participant twice. -/
theorem linked_placeNotes (h : s.picture.Linked) {d : Sequence}
    (hd : ∀ n ∈ d.notes, n.participants.Nodup) : (s.placeNotes d).picture.Linked := by
  have hput : ((presentNotes s.picture d).foldl (notePhase d.messages.length).put s).picture.Linked := by
    refine linked_putAll (notePhase d.messages.length) h fun x hx u hu hsame => ?_
    obtain ⟨hnodup, hthere⟩ := presentNotes_spec hd hx
    exact linked_placeNote hu _ _ _ hnodup fun id hid => (hsame id).mpr (hthere id hid)
  rw [placeNotes_eq, foldl_removeNote_picture]
  exact List.foldlRecOn _ _ hput fun t ht key _ => ht.withoutNote key

/-- Rendering a diagram keeps the timeline linked, also if the title is refused.
    All that a rendering goes through is one of the changes above. -/
theorem linked_render (h : s.picture.Linked) {d : Sequence}
    (hd : ∀ n ∈ d.notes, n.participants.Nodup) : (s.render d).state.picture.Linked := by
  have hpruned : (s.removeStaleParticipants (d.participants.map Participant.id)).picture.Linked := by
    refine List.foldlRecOn (motive := fun u : TimelineStage α => u.picture.Linked) _ _ h ?_
    intro u hu id _
    rw [removeParticipant_picture]
    exact hu.withoutParticipant id
  have hplaced : ((s.removeStaleParticipants (d.participants.map Participant.id)).placeParticipants
      d).picture.Linked :=
    List.foldlRecOn (motive := fun u : TimelineStage α => u.picture.Linked) _ _ hpruned
      fun u hu x _ => linked_placeParticipant hu _ x.1 x.2
  have huntitled : (s.untitled d).picture.Linked :=
    linked_placeNotes (linked_placeMessages hplaced d) hd
  by_cases htitle : s.RefusesTitle d
  · rw [render_of_refusesTitle htitle]
    exact huntitled.congr rfl rfl rfl
  · rw [(render_of_not_refusesTitle htitle).2.1]
    exact huntitled.congr rfl rfl rfl

end TimelineStage

end LiveDiagram
