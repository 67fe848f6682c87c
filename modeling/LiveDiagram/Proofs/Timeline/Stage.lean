import LiveDiagram.Proofs.Stage.Outcome
import LiveDiagram.Proofs.Store.Positions
import LiveDiagram.Proofs.Timeline.Lookup

namespace LiveDiagram

variable {α : Type}

namespace Timeline

/-- The timeline without a message. -/
def withoutMessage (t : Timeline α) (key : String) : Timeline α :=
  match t.messages[key]? with
  | none => t
  | some m =>
    let t := (t.unlinkMessage key m.message.source).unlinkMessage key m.message.target
    { t with messages := t.messages.erase key }

/-- The timeline without a note. -/
def withoutNote (t : Timeline α) (key : String) : Timeline α :=
  match t.notes[key]? with
  | none => t
  | some n =>
    let t := n.note.participants.foldl (fun t id => t.unlinkNote key id) t
    { t with notes := t.notes.erase key }

@[simp] theorem withoutMessage_bare? (t : Timeline α) (key id : String) :
    (t.withoutMessage key).bare? id = t.bare? id := by
  unfold withoutMessage
  split
  · rfl
  · rename_i m _
    exact ((t.unlinkMessage key m.message.source).unlinkMessage_bare? key m.message.target id).trans
      (t.unlinkMessage_bare? key m.message.source id)

@[simp] theorem withoutNote_bare? (t : Timeline α) (key id : String) :
    (t.withoutNote key).bare? id = t.bare? id := by
  unfold withoutNote
  split
  · rfl
  · rename_i n _
    exact foldl_unlinkNote_bare? t key n.note.participants id

theorem withoutMessage_getElem? (t : Timeline α) (key other : String) :
    (t.withoutMessage key).messages[other]? = if key = other then none else t.messages[other]? := by
  unfold withoutMessage
  split
  · grind
  · dsimp only [unlinkMessage, modifyParticipant]
    grind

/-- Without a note, the other ones stay. -/
theorem withoutNote_getElem? (t : Timeline α) (key other : String) :
    (t.withoutNote key).notes[other]? = if key = other then none else t.notes[other]? := by
  unfold withoutNote
  split
  · grind
  · rename_i n _
    have hrest := (foldl_unlinkNote_sameRest t key n.note.participants).notes
    dsimp only
    rw [hrest]
    grind

@[simp] theorem withoutMessage_notes (t : Timeline α) (key : String) :
    (t.withoutMessage key).notes = t.notes := by
  unfold withoutMessage
  split <;> rfl

@[simp] theorem withoutMessage_title (t : Timeline α) (key : String) :
    (t.withoutMessage key).title = t.title := by
  unfold withoutMessage
  split <;> rfl

@[simp] theorem withoutNote_messages (t : Timeline α) (key : String) :
    (t.withoutNote key).messages = t.messages := by
  unfold withoutNote
  split
  · rfl
  · exact (foldl_unlinkNote_sameRest t key _).messages

@[simp] theorem withoutNote_title (t : Timeline α) (key : String) :
    (t.withoutNote key).title = t.title := by
  unfold withoutNote
  split
  · rfl
  · exact (foldl_unlinkNote_sameRest t key _).title

/-- The timeline in which the ends of a new message list it. -/
def listMessage (t : Timeline α) (key : String) (spec : Message) : Timeline α :=
  let t := t.linkMessage key spec.source
  if spec.target = spec.source then t else t.linkMessage key spec.target

@[simp] theorem listMessage_bare? (t : Timeline α) (key : String) (spec : Message) (id : String) :
    (t.listMessage key spec).bare? id = t.bare? id := by
  unfold listMessage
  split <;> simp

theorem listMessage_sameRest (t : Timeline α) (key : String) (spec : Message) :
    SameRest t (t.listMessage key spec) := by
  unfold listMessage
  split <;> exact ⟨rfl, rfl, rfl, rfl⟩

/-- The timeline with a message put. A new one is listed at its ends. -/
def withMessage (t : Timeline α) (key : String) (spec : Message) (m : MessageItem α) : Timeline α :=
  let u := match t.messages[key]? with
    | some _ => t
    | none => t.listMessage key spec
  { u with messages := u.messages.insert key m }

@[simp] theorem withMessage_bare? (t : Timeline α) (key : String) (spec : Message) (m : MessageItem α)
    (id : String) : (t.withMessage key spec m).bare? id = t.bare? id := by
  unfold withMessage
  cases t.messages[key]? with
  | some _ => rfl
  | none => exact t.listMessage_bare? key spec id

theorem withMessage_sameRest (t : Timeline α) (key : String) (spec : Message) (m : MessageItem α) :
    SameRest { t with messages := t.messages.insert key m } (t.withMessage key spec m) := by
  unfold withMessage
  cases t.messages[key]? with
  | some _ => exact ⟨rfl, rfl, rfl, rfl⟩
  | none =>
    have hrest := t.listMessage_sameRest key spec
    exact ⟨congrArg (·.insert key m) hrest.messages, hrest.notes, hrest.title, hrest.order⟩

/-- A message that is put is seen under its key and nowhere else. -/
theorem withMessage_getElem? (t : Timeline α) (key other : String) (spec : Message)
    (m : MessageItem α) :
    (t.withMessage key spec m).messages[other]? =
      if key = other then some m else t.messages[other]? := by
  rw [(t.withMessage_sameRest key spec m).messages]
  grind

/-- The timeline with a note put. A new one is listed at its participants. -/
def withNote (t : Timeline α) (key : String) (present : List String) (n : NoteItem α) : Timeline α :=
  let u := match t.notes[key]? with
    | some _ => t
    | none => present.foldl (fun t id => t.linkNote key id) t
  { u with notes := u.notes.insert key n }

@[simp] theorem withNote_bare? (t : Timeline α) (key : String) (present : List String)
    (n : NoteItem α) (id : String) : (t.withNote key present n).bare? id = t.bare? id := by
  unfold withNote
  cases t.notes[key]? with
  | some _ => rfl
  | none => exact foldl_linkNote_bare? t key present id

theorem withNote_sameRest (t : Timeline α) (key : String) (present : List String) (n : NoteItem α) :
    SameRest { t with notes := t.notes.insert key n } (t.withNote key present n) := by
  unfold withNote
  cases t.notes[key]? with
  | some _ => exact ⟨rfl, rfl, rfl, rfl⟩
  | none =>
    have hrest := foldl_linkNote_sameRest t key present
    exact ⟨hrest.messages, congrArg (·.insert key n) hrest.notes, hrest.title, hrest.order⟩

/-- A note that is put is seen under its key and nowhere else. -/
theorem withNote_getElem? (t : Timeline α) (key other : String) (present : List String)
    (n : NoteItem α) :
    (t.withNote key present n).notes[other]? = if key = other then some n else t.notes[other]? := by
  rw [(t.withNote_sameRest key present n).notes]
  grind

/-- Of two notes put under one key the last one counts. -/
theorem withNote_insert (t : Timeline α) (key : String) (present : List String) (n n' : NoteItem α) :
    ({ t.withNote key present n with notes := (t.withNote key present n).notes.insert key n' } :
      Timeline α) = t.withNote key present n' := by
  have hnotes : ∀ notes : Std.ExtTreeMap String (NoteItem α),
      (notes.insert key n).insert key n' = notes.insert key n' := by
    intro notes
    apply Std.ExtTreeMap.ext_getElem?
    intro other
    grind
  unfold withNote
  dsimp only
  rw [hnotes]

end Timeline

/-- A participant as a diagram states it, at its recorded place or else at the
    default one, without lists. -/
def placedBare [Scalar α] (store : Store α) (spacing : α) (spec : Participant) (index : Nat) :
    ParticipantItem α where
  label := spec.label
  x := ((store.node? spec.id).map Rect.x).getD (Layout.participantLeft index spacing)
  width := match store.node? spec.id with
    | some r => if 0 < r.width then r.width else Layout.participantWidth
    | none => Layout.participantWidth

namespace TimelineStage

open Stage

section Removal

variable (s : TimelineStage α)

theorem removeMessage_of_getElem? {s : TimelineStage α} {key : String} {m : MessageItem α}
    (hm : s.picture.messages[key]? = some m) :
    s.removeMessage key =
      eraseParts { s with picture := s.picture.withoutMessage key } (MessageItem.partIds key) := by
  unfold removeMessage Timeline.withoutMessage
  rw [hm]
  rfl

theorem removeMessage_of_getElem?_eq_none {s : TimelineStage α} {key : String}
    (hm : s.picture.messages[key]? = none) : s.removeMessage key = s := by
  unfold removeMessage
  rw [hm]

theorem removeNote_of_getElem? {s : TimelineStage α} {key : String} {n : NoteItem α}
    (hn : s.picture.notes[key]? = some n) :
    s.removeNote key =
      eraseParts { s with picture := s.picture.withoutNote key } (NoteItem.partIds key) := by
  unfold removeNote Timeline.withoutNote
  rw [hn]
  rfl

theorem removeNote_of_getElem?_eq_none {s : TimelineStage α} {key : String}
    (hn : s.picture.notes[key]? = none) : s.removeNote key = s := by
  unfold removeNote
  rw [hn]

theorem removeMessage_picture (key : String) :
    (s.removeMessage key).picture = s.picture.withoutMessage key := by
  unfold removeMessage Timeline.withoutMessage
  cases s.picture.messages[key]? <;> rfl

theorem removeNote_picture (key : String) :
    (s.removeNote key).picture = s.picture.withoutNote key := by
  unfold removeNote Timeline.withoutNote
  cases s.picture.notes[key]? <;> rfl

/-- Nothing that happens to a timeline changes the settings, the measure, or
    what the surface refuses. Removing a message does not. -/
theorem removeMessage_sameSetup (key : String) : SameSetup s (s.removeMessage key) := by
  unfold removeMessage
  split
  · exact .refl s
  · refine SameSetup.eraseParts ?_ _
    exact ⟨rfl, rfl, rfl⟩

theorem removeNote_sameSetup (key : String) : SameSetup s (s.removeNote key) := by
  unfold removeNote
  split
  · exact .refl s
  · refine SameSetup.eraseParts ?_ _
    exact ⟨rfl, rfl, rfl⟩

theorem removeParticipant_sameSetup (id : String) : SameSetup s (s.removeParticipant id) := by
  unfold removeParticipant
  split
  · exact .refl s
  · rename_i p _
    have hmessages := sameSetup_foldl removeMessage_sameSetup p.messageKeys s
    have hnotes := hmessages.trans (sameSetup_foldl removeNote_sameSetup p.noteKeys _)
    have hparts := hnotes.eraseParts (ParticipantItem.partIds id)
    exact ⟨hparts.settings, hparts.measure, hparts.refused⟩

theorem removeStaleParticipants_sameSetup (ids : List String) :
    SameSetup s (s.removeStaleParticipants ids) :=
  sameSetup_foldl removeParticipant_sameSetup _ s

/-- What two operations keep of the setup is kept by both in turn, wherever the
    first stops. -/
theorem sameSetup_andThen {s : TimelineStage α} {o : Outcome (TimelineStage α)}
    {f : TimelineStage α → Outcome (TimelineStage α)} (ho : SameSetup s o.state)
    (hf : ∀ t, SameSetup t (f t).state) : SameSetup s (o.andThen f).state :=
  Outcome.andThen_state ho fun t ht => ht.trans (hf t)

end Removal

variable [Scalar α]

/-- A participant as a diagram states it, at its recorded place or else at the
    default one, with the lists of the participant that was there. -/
def placedParticipant (s : TimelineStage α) (spacing : α) (spec : Participant) (index : Nat) :
    ParticipantItem α :=
  { placedBare s.store spacing spec index with
    messageKeys := match s.picture.participants[spec.id]? with
      | some p => p.messageKeys
      | none => []
    noteKeys := match s.picture.participants[spec.id]? with
      | some p => p.noteKeys
      | none => [] }

/-- A participant that was just put on the timeline is drawn as it was put. -/
theorem drawParticipant_of_setParticipant {s : TimelineStage α} {t : Timeline α} {id : String}
    {p : ParticipantItem α}
    (hs : s.picture = t.setParticipant id p) : s.drawParticipant id = Stage.draw s (p.marks id) := by
  have hplaced : s.picture.participants[id]? = some p := by
    rw [hs]
    exact Std.ExtTreeMap.getElem?_insert_self
  unfold drawParticipant
  rw [hplaced]

/-- Putting a participant draws it where it is put. -/
theorem placeParticipant_eq (s : TimelineStage α) (spacing : α) (spec : Participant) (index : Nat) :
    s.placeParticipant spacing spec index =
      Stage.draw
        { s with
          picture := s.picture.setParticipant spec.id (s.placedParticipant spacing spec index)
          store := s.store.load }
        ((s.placedParticipant spacing spec index).marks spec.id) := by
  have hstart : s.placeParticipant spacing spec index =
      drawParticipant
        { s with
          picture := s.picture.setParticipant spec.id (s.placedParticipant spacing spec index)
          store := s.store.load } spec.id := by
    unfold placeParticipant placedParticipant placedBare
    simp only [Store.node?_load]
    cases s.picture.participants[spec.id]? <;> rfl
  rw [hstart]
  exact drawParticipant_of_setParticipant rfl

/-- A message as a diagram states it. One that is there keeps its ends. -/
def placedMessage (t : Timeline α) (spec : Message) (index : Nat) : MessageItem α where
  message := match t.messages[spec.key index]? with
    | some m => { m.message with text := spec.text, style := spec.style }
    | none => spec
  y := Layout.messageY index

/-- Putting a message draws it between the lifelines of its ends. A message that
    is there keeps its ends, whatever the diagram says of them. -/
theorem placeMessage_eq (s : TimelineStage α) (spec : Message) (index : Nat) :
    s.placeMessage spec index =
      Stage.draw
        { s with
          picture := s.picture.withMessage (spec.key index) spec (placedMessage s.picture spec index) }
        ((placedMessage s.picture spec index).marks s.measure (spec.key index)
          (s.picture.centerOf (placedMessage s.picture spec index).message.source)
          (s.picture.centerOf (placedMessage s.picture spec index).message.target)) := by
  have hstart : s.placeMessage spec index =
      drawMessage
        { s with
          picture := s.picture.withMessage (spec.key index) spec (placedMessage s.picture spec index) }
        (spec.key index) := by
    unfold placeMessage Timeline.withMessage placedMessage
    dsimp only
    cases s.picture.messages[spec.key index]? <;> rfl
  have hcenter := Timeline.centerOf_congr
    (s.picture.withMessage_bare? (spec.key index) spec (placedMessage s.picture spec index))
  rw [hstart]
  unfold drawMessage
  dsimp only
  rw [Timeline.withMessage_getElem?, if_pos rfl]
  dsimp only
  rw [hcenter]

/-- The participants of a note. One that is there keeps those that it has. -/
def placedIds (t : Timeline α) (spec : Note) (present : List String) (index : Nat) : List String :=
  match t.notes[spec.key index]? with
  | some n => n.note.participants
  | none => present

/-- A note as a diagram states it, with its box around the lifelines of its
    participants. -/
def placedNote (s : TimelineStage α) (messages : Nat) (spec : Note) (present : List String)
    (index : Nat) : NoteItem α where
  note := { participants := placedIds s.picture spec present index, text := spec.text }
  y := Layout.noteY messages index
  rect := s.picture.noteBox (placedIds s.picture spec present index) (Layout.noteY messages index)
    (s.measure spec.text).height

/-- Putting a note draws it around the lifelines of its participants. A note
    that is there keeps its participants, in the order in which it names
    them. -/
theorem placeNote_eq (s : TimelineStage α) (messages : Nat) (spec : Note) (present : List String)
    (index : Nat) :
    s.placeNote messages spec present index =
      Stage.draw
        { s with
          picture := s.picture.withNote (spec.key index) present
            (s.placedNote messages spec present index) }
        ((s.placedNote messages spec present index).marks (spec.key index)) := by
  let blank : NoteItem α :=
    { note := { participants := placedIds s.picture spec present index, text := spec.text }
      y := Layout.noteY messages index
      rect := Rect.zero }
  have hstart : s.placeNote messages spec present index =
      drawNote { s with picture := s.picture.withNote (spec.key index) present blank }
        (spec.key index) := by
    unfold placeNote Timeline.withNote
    simp only [blank, placedIds]
    cases s.picture.notes[spec.key index]? <;> rfl
  have hbox := Timeline.noteBox_congr (s.picture.withNote_bare? (spec.key index) present blank)
  rw [hstart]
  unfold drawNote
  dsimp only
  rw [Timeline.withNote_getElem?, if_pos rfl]
  dsimp only
  rw [hbox, set, Timeline.withNote_insert]
  rfl

section Setup

variable (s : TimelineStage α)

theorem drawParticipant_sameSetup (id : String) : SameSetup s (s.drawParticipant id).state := by
  unfold drawParticipant
  split
  · exact (SameSetup.refl s).draw _
  · exact .refl s

theorem drawMessage_sameSetup (key : String) : SameSetup s (s.drawMessage key).state := by
  unfold drawMessage
  split
  · exact (SameSetup.refl s).draw _
  · exact .refl s

theorem drawNote_sameSetup (key : String) : SameSetup s (s.drawNote key).state := by
  unfold drawNote
  split
  · refine SameSetup.draw ?_ _
    exact ⟨rfl, rfl, rfl⟩
  · exact .refl s

theorem drawTitle_sameSetup : SameSetup s s.drawTitle.state :=
  (SameSetup.refl s).draw _

theorem placeParticipant_sameSetup (spacing : α) (spec : Participant) (index : Nat) :
    SameSetup s (s.placeParticipant spacing spec index).state := by
  rw [placeParticipant_eq]
  refine SameSetup.draw ?_ _
  exact ⟨rfl, rfl, rfl⟩

theorem placeMessage_sameSetup (spec : Message) (index : Nat) :
    SameSetup s (s.placeMessage spec index).state := by
  rw [placeMessage_eq]
  refine SameSetup.draw ?_ _
  exact ⟨rfl, rfl, rfl⟩

theorem placeNote_sameSetup (messages : Nat) (spec : Note) (present : List String) (index : Nat) :
    SameSetup s (s.placeNote messages spec present index).state := by
  rw [placeNote_eq]
  refine SameSetup.draw ?_ _
  exact ⟨rfl, rfl, rfl⟩

theorem placeParticipants_sameSetup (d : Sequence) : SameSetup s (s.placeParticipants d) :=
  sameSetup_foldl (fun s (p : Participant × Nat) => placeParticipant_sameSetup s _ p.1 p.2) _ s

theorem placeMessages_sameSetup (d : Sequence) : SameSetup s (s.placeMessages d) := by
  have hput := sameSetup_foldl (fun s (p : Message × Nat) => placeMessage_sameSetup s p.1 p.2)
    (presentMessages s.picture d) s
  exact hput.trans (sameSetup_foldl removeMessage_sameSetup _ _)

theorem placeNotes_sameSetup (d : Sequence) : SameSetup s (s.placeNotes d) := by
  have hput := sameSetup_foldl
    (fun s (p : Note × List String × Nat) =>
      placeNote_sameSetup s d.messages.length p.1 p.2.1 p.2.2) (presentNotes s.picture d) s
  exact hput.trans (sameSetup_foldl removeNote_sameSetup _ _)

theorem persistParticipant_sameSetup (id : String) : SameSetup s (s.persistParticipant id) := by
  unfold persistParticipant
  split
  · exact .refl s
  · split <;> exact ⟨rfl, rfl, rfl⟩

/-- A rendering keeps the setup, also if its title is refused. -/
theorem render_sameSetup (d : Sequence) : SameSetup s (render s d).state := by
  have hplaced := (s.removeStaleParticipants_sameSetup (d.participants.map Participant.id)).trans
    (placeParticipants_sameSetup _ d)
  have hdrawn := hplaced.trans ((placeMessages_sameSetup _ d).trans (placeNotes_sameSetup _ d))
  unfold render
  refine sameSetup_andThen ?_ fun t => ?_
  · refine SameSetup.draw ?_ _
    exact ⟨hdrawn.settings, hdrawn.measure, hdrawn.refused⟩
  · have hrecorded := sameSetup_foldl persistParticipant_sameSetup t.picture.participants.keys t
    exact ⟨hrecorded.settings, hrecorded.measure, hrecorded.refused⟩

/-- Drawing what depends on a participant keeps the setup. -/
theorem updateDependents_sameSetup (id : String) : SameSetup s (s.updateDependents id).state := by
  unfold updateDependents
  split
  · exact .refl s
  · refine sameSetup_andThen (sameSetup_andThen ?_ fun t => ?_) drawTitle_sameSetup
    · exact Outcome.forEach_state (P := SameSetup s)
        (fun key _ t ht => ht.trans (drawMessage_sameSetup t key)) (.refl s)
    · exact Outcome.forEach_state (P := SameSetup t)
        (fun key _ u hu => hu.trans (drawNote_sameSetup u key)) (.refl t)

theorem moveParticipant_sameSetup (id : String) (x : α) :
    SameSetup s (s.moveParticipant id x).state := by
  unfold moveParticipant
  split
  · exact .refl s
  · rename_i p _
    refine sameSetup_andThen ?_ fun t => updateDependents_sameSetup t id
    have hdrawn := drawParticipant_sameSetup (s.set (s.picture.setParticipant id { p with x })) id
    exact ⟨hdrawn.settings, hdrawn.measure, hdrawn.refused⟩

theorem commitParticipant_sameSetup (id : String) : SameSetup s (s.commitParticipant id) := by
  unfold commitParticipant
  split
  · exact .refl s
  · exact ⟨rfl, rfl, rfl⟩

end Setup

end TimelineStage

end LiveDiagram
