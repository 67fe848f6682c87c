import LiveDiagram.Proofs.Timeline.Lists

namespace LiveDiagram

variable {α : Type}

namespace Timeline

/-- Messages and notes stand under keys that are made for them and are attached
    to participants that are there, and every participant lists exactly the
    messages and the notes that are attached to it, each of them once. -/
structure Linked (t : Timeline α) : Prop where
  message_keyed : ∀ {key : String} {m : MessageItem α}, t.messages[key]? = some m →
    ∃ (spec : Message) (index : Nat),
      spec.key index = key ∧ m.message.text = spec.text ∧ m.message.style = spec.style
  note_keyed : ∀ {key : String} {n : NoteItem α}, t.notes[key]? = some n →
    ∃ (spec : Note) (index : Nat), spec.key index = key ∧ n.note.text = spec.text
  nodup_over : ∀ {key : String} {n : NoteItem α}, t.notes[key]? = some n → n.note.participants.Nodup
  messages : ListsExactly t.messageList? t.HasMessageAt
  notes : ListsExactly t.noteList? t.HasNoteAt

theorem linked_empty : (empty : Timeline α).Linked where
  message_keyed h := by simp [empty] at h
  note_keyed h := by simp [empty] at h
  nodup_over h := by simp [empty] at h
  messages := .empty (by simp [messageList?, empty]) (by simp [HasMessageAt, empty])
  notes := .empty (by simp [noteList?, empty]) (by simp [HasNoteAt, empty])

namespace Linked

variable {t u : Timeline α}

/-- Being linked is about the participants, the messages and the notes, and not
    about the title or the order. -/
theorem congr (h : t.Linked) (hparticipants : u.participants = t.participants)
    (hmessages : u.messages = t.messages) (hnotes : u.notes = t.notes) : u.Linked := by
  obtain ⟨participants, messages, notes, title, order⟩ := u
  cases hparticipants
  cases hmessages
  cases hnotes
  exact ⟨h.message_keyed, h.note_keyed, h.nodup_over, h.messages, h.notes⟩

/-- A timeline without one of its messages is linked: the key is taken off the
    lists of both ends, and no other list has it. -/
theorem withoutMessage (h : t.Linked) (key : String) : (t.withoutMessage key).Linked := by
  cases hm : t.messages[key]? with
  | none =>
    unfold Timeline.withoutMessage
    rwa [hm]
  | some m =>
    have hunlinked : (t.withoutMessage key).participants =
        ((t.unlinkMessage key m.message.source).unlinkMessage key m.message.target).participants := by
      unfold Timeline.withoutMessage
      rw [hm]
    have hmessages (id : String) : (t.withoutMessage key).messageList? id =
        if m.message.EndsAt id then (t.messageList? id).map (List.filter fun k => k != key)
        else t.messageList? id := by
      have hlist := (t.unlinkMessage key m.message.source).unlinkMessage_messageList? key
        m.message.target id
      unfold messageList? at hlist ⊢
      rw [hunlinked, hlist, ← messageList?, ← messageList?, unlinkMessage_messageList?]
      unfold Message.EndsAt
      by_cases hsource : m.message.source = id <;> by_cases htarget : m.message.target = id <;>
        simp [hsource, htarget, Function.comp_def]
    have hnotes (id : String) : (t.withoutMessage key).noteList? id = t.noteList? id := by
      have hlist := (t.unlinkMessage key m.message.source).unlinkMessage_noteList? key
        m.message.target id
      have hfirst := t.unlinkMessage_noteList? key m.message.source id
      unfold noteList? at hlist hfirst ⊢
      rw [hunlinked, hlist, hfirst]
    refine ⟨fun {other m'} hm' => ?_, ?_, ?_, ?_, ?_⟩
    · rw [withoutMessage_getElem?] at hm'
      split at hm'
      · cases hm'
      · exact h.message_keyed hm'
    · rw [withoutMessage_notes]
      exact h.note_keyed
    · rw [withoutMessage_notes]
      exact h.nodup_over
    · refine h.messages.drop ?_ hmessages fun _ _ => withoutMessage_hasMessageAt
      rintro id ⟨m', hm', hat⟩
      rw [hm] at hm'
      cases hm'
      exact hat
    · refine h.notes.congr hnotes fun other id => ?_
      unfold HasNoteAt
      rw [withoutMessage_notes]

/-- A timeline without one of its notes is linked: the key is taken off the
    lists of its participants. -/
theorem withoutNote (h : t.Linked) (key : String) : (t.withoutNote key).Linked := by
  cases hn : t.notes[key]? with
  | none =>
    unfold Timeline.withoutNote
    rwa [hn]
  | some n =>
    have hunlinked : (t.withoutNote key).participants =
        (n.note.participants.foldl (fun t id => t.unlinkNote key id) t).participants := by
      unfold Timeline.withoutNote
      rw [hn]
    have hnotes (id : String) : (t.withoutNote key).noteList? id =
        if id ∈ n.note.participants then (t.noteList? id).map (List.filter fun k => k != key)
        else t.noteList? id := by
      rw [← foldl_unlinkNote_noteList?]
      unfold noteList?
      rw [hunlinked]
    have hmessages (id : String) : (t.withoutNote key).messageList? id = t.messageList? id := by
      rw [← foldl_unlinkNote_messageList? t key id n.note.participants]
      unfold messageList?
      rw [hunlinked]
    have hkept {other : String} {n' : NoteItem α}
        (hn' : (t.withoutNote key).notes[other]? = some n') : t.notes[other]? = some n' := by
      rw [withoutNote_getElem?] at hn'
      split at hn'
      · cases hn'
      · exact hn'
    refine ⟨?_, fun hn' => h.note_keyed (hkept hn'), fun hn' => h.nodup_over (hkept hn'), ?_, ?_⟩
    · rw [withoutNote_messages]
      exact h.message_keyed
    · refine h.messages.congr hmessages fun other id => ?_
      unfold HasMessageAt
      rw [withoutNote_messages]
    · refine h.notes.drop ?_ hnotes fun _ _ => withoutNote_hasNoteAt
      rintro id ⟨n', hn', hat⟩
      rw [hn] at hn'
      cases hn'
      exact hat

/-- A message is put: it keeps the ends of the one that is there, or it ends at
    participants that are there. -/
theorem withMessage (h : t.Linked) {key : String} {spec : Message} {m : MessageItem α}
    (hkeyed : ∃ (stated : Message) (index : Nat),
      stated.key index = key ∧ m.message.text = stated.text ∧ m.message.style = stated.style)
    (hold : ∀ old, t.messages[key]? = some old → ∀ id, m.message.EndsAt id ↔ old.message.EndsAt id)
    (hnew : t.messages[key]? = none → ∀ id,
      (m.message.EndsAt id ↔ spec.EndsAt id) ∧ (spec.EndsAt id → id ∈ t.participants)) :
    (t.withMessage key spec m).Linked := by
  have hrest := t.withMessage_sameRest key spec m
  have hmessages : ListsExactly (t.withMessage key spec m).messageList?
      (t.withMessage key spec m).HasMessageAt := by
    cases hm : t.messages[key]? with
    | some old =>
      refine h.messages.congr (fun id => ?_) fun other id => ?_
      · unfold Timeline.withMessage
        rw [hm]
        rfl
      · rw [withMessage_hasMessageAt]
        split
        · rename_i hkey
          subst hkey
          rw [hold old hm id]
          simp [HasMessageAt, hm]
        · exact Iff.rfl
    | none =>
      refine h.messages.add key spec.EndsAt ?_ ?_ (fun id => ?_) fun other id => ?_
      · rintro id ⟨old, hold, -⟩
        rw [hm] at hold
        cases hold
      · exact fun id hend => messageList?_isSome.mpr ((hnew hm id).2 hend)
      · rw [← listMessage_messageList?]
        unfold Timeline.withMessage
        rw [hm]
        rfl
      · rw [withMessage_hasMessageAt, (hnew hm id).1]
  have hnotes (id : String) : (t.withMessage key spec m).noteList? id = t.noteList? id := by
    unfold Timeline.withMessage
    cases t.messages[key]? with
    | some old => rfl
    | none => exact t.listMessage_noteList? key id spec
  refine ⟨fun {other m'} hm' => ?_, ?_, ?_, hmessages, h.notes.congr hnotes fun other id => ?_⟩
  · rw [withMessage_getElem?] at hm'
    split at hm'
    · rename_i hkey
      cases hm'
      exact hkey ▸ hkeyed
    · exact h.message_keyed hm'
  · rw [hrest.notes]
    exact h.note_keyed
  · rw [hrest.notes]
    exact h.nodup_over
  · unfold HasNoteAt
    rw [hrest.notes]

/-- A note is put: it keeps the participants of the one that is there, or it is
    over participants that are there. -/
theorem withNote (h : t.Linked) {key : String} {present : List String} {n : NoteItem α}
    (hkeyed : ∃ (stated : Note) (index : Nat), stated.key index = key ∧ n.note.text = stated.text)
    (hold : ∀ old, t.notes[key]? = some old → n.note.participants = old.note.participants)
    (hnew : t.notes[key]? = none → n.note.participants = present ∧ present.Nodup ∧
      ∀ id ∈ present, id ∈ t.participants) :
    (t.withNote key present n).Linked := by
  have hrest := t.withNote_sameRest key present n
  have hnotes : ListsExactly (t.withNote key present n).noteList? (t.withNote key present n).HasNoteAt := by
    cases hn : t.notes[key]? with
    | some old =>
      refine h.notes.congr (fun id => ?_) fun other id => ?_
      · unfold Timeline.withNote
        rw [hn]
        rfl
      · rw [withNote_hasNoteAt]
        split
        · rename_i hkey
          subst hkey
          rw [hold old hn]
          simp [HasNoteAt, hn]
        · exact Iff.rfl
    | none =>
      obtain ⟨hover, hnodup, hthere⟩ := hnew hn
      refine h.notes.add key (fun id => id ∈ present) ?_ ?_ (fun id => ?_) fun other id => ?_
      · rintro id ⟨old, hold, -⟩
        rw [hn] at hold
        cases hold
      · exact fun id hid => noteList?_isSome.mpr (hthere id hid)
      · rw [← foldl_linkNote_noteList? t key id hnodup]
        unfold Timeline.withNote
        rw [hn]
        rfl
      · rw [withNote_hasNoteAt, hover]
  have hmessages (id : String) : (t.withNote key present n).messageList? id = t.messageList? id := by
    unfold Timeline.withNote
    cases t.notes[key]? with
    | some old => rfl
    | none => exact t.foldl_linkNote_messageList? key id present
  have hfound : ∀ {other : String} {n' : NoteItem α},
      (t.withNote key present n).notes[other]? = some n' →
        key = other ∧ n' = n ∨ t.notes[other]? = some n' := by
    intro other n' hn'
    rw [withNote_getElem?] at hn'
    split at hn'
    · exact .inl ⟨‹_›, (Option.some.inj hn').symm⟩
    · exact .inr hn'
  refine ⟨?_, fun hn' => ?_, fun hn' => ?_, h.messages.congr hmessages fun other id => ?_, hnotes⟩
  · rw [hrest.messages]
    exact h.message_keyed
  · rcases hfound hn' with ⟨rfl, rfl⟩ | hbefore
    · exact hkeyed
    · exact h.note_keyed hbefore
  · rcases hfound hn' with ⟨rfl, rfl⟩ | hbefore
    · cases hn : t.notes[key]? with
      | some old => exact hold old hn ▸ h.nodup_over hn
      | none =>
        obtain ⟨hover, hnodup, -⟩ := hnew hn
        exact hover ▸ hnodup
    · exact h.nodup_over hbefore
  · unfold HasMessageAt
    rw [hrest.messages]

/-- A participant is put, with the lists of the one that is there or else with
    empty ones. -/
theorem setParticipant (h : t.Linked) {id : String} {p : ParticipantItem α}
    (hmessages : p.messageKeys = (t.messageList? id).getD [])
    (hnotes : p.noteKeys = (t.noteList? id).getD []) : (t.setParticipant id p).Linked := by
  refine ⟨h.message_keyed, h.note_keyed, h.nodup_over, h.messages.enlist id fun other => ?_,
    h.notes.enlist id fun other => ?_⟩
  · unfold messageList? at hmessages ⊢
    unfold Timeline.setParticipant
    grind
  · unfold noteList? at hnotes ⊢
    unfold Timeline.setParticipant
    grind

/-- A participant without messages and notes is removed. With some, these would
    be left without a participant. -/
theorem eraseParticipant (h : t.Linked) {id : String} (hmessages : ∀ key, ¬ t.HasMessageAt key id)
    (hnotes : ∀ key, ¬ t.HasNoteAt key id) :
    ({ t with participants := t.participants.erase id } : Timeline α).Linked := by
  refine ⟨h.message_keyed, h.note_keyed, h.nodup_over, h.messages.forget hmessages fun other => ?_,
    h.notes.forget hnotes fun other => ?_⟩
  · unfold messageList?
    grind
  · unfold noteList?
    grind

end Linked

/-- The links of a timeline, item by item. -/
structure Consistent (t : Timeline α) : Prop where
  message_keyed : ∀ {key : String} {m : MessageItem α}, t.messages[key]? = some m →
    ∃ (spec : Message) (index : Nat),
      spec.key index = key ∧ m.message.text = spec.text ∧ m.message.style = spec.style
  note_keyed : ∀ {key : String} {n : NoteItem α}, t.notes[key]? = some n →
    ∃ (spec : Note) (index : Nat), spec.key index = key ∧ n.note.text = spec.text
  source_mem : ∀ {key : String} {m : MessageItem α}, t.messages[key]? = some m →
    m.message.source ∈ t.participants
  target_mem : ∀ {key : String} {m : MessageItem α}, t.messages[key]? = some m →
    m.message.target ∈ t.participants
  over_mem : ∀ {key : String} {n : NoteItem α}, t.notes[key]? = some n →
    ∀ id ∈ n.note.participants, id ∈ t.participants
  mem_messageKeys : ∀ {id : String} {p : ParticipantItem α}, t.participants[id]? = some p → ∀ key,
    key ∈ p.messageKeys ↔ ∃ m, t.messages[key]? = some m ∧ m.message.EndsAt id
  nodup_messageKeys : ∀ {id : String} {p : ParticipantItem α}, t.participants[id]? = some p →
    p.messageKeys.Nodup
  mem_noteKeys : ∀ {id : String} {p : ParticipantItem α}, t.participants[id]? = some p → ∀ key,
    key ∈ p.noteKeys ↔ ∃ n, t.notes[key]? = some n ∧ id ∈ n.note.participants
  nodup_noteKeys : ∀ {id : String} {p : ParticipantItem α}, t.participants[id]? = some p →
    p.noteKeys.Nodup

/-- The links of a linked timeline, item by item: a message names its two ends
    and a note its participants, every participant lists what is attached to it,
    and both directions agree. -/
theorem Linked.consistent {t : Timeline α} (h : t.Linked) : t.Consistent := by
  have hmessageEnd {key id : String} (hat : t.HasMessageAt key id) : id ∈ t.participants :=
    messageList?_isSome.mp (h.messages.isSome hat)
  have hnoteOver {key id : String} (hat : t.HasNoteAt key id) : id ∈ t.participants :=
    noteList?_isSome.mp (h.notes.isSome hat)
  exact {
    message_keyed := h.message_keyed
    note_keyed := h.note_keyed
    source_mem := fun hm => hmessageEnd ⟨_, hm, .inl rfl⟩
    target_mem := fun hm => hmessageEnd ⟨_, hm, .inr rfl⟩
    over_mem := fun hn _ hid => hnoteOver ⟨_, hn, hid⟩
    mem_messageKeys := fun hp => h.messages.mem_iff (messageList?_of_getElem? hp)
    nodup_messageKeys := fun hp => h.messages.nodup (messageList?_of_getElem? hp)
    mem_noteKeys := fun hp => h.notes.mem_iff (noteList?_of_getElem? hp)
    nodup_noteKeys := fun hp => h.notes.nodup (noteList?_of_getElem? hp) }

end Timeline

end LiveDiagram
