import LiveDiagram.Proofs.Sequence.Written

namespace LiveDiagram

open Text

namespace Sequence

/-- What the lines of a sequence diagram state, behind the line that says that
    it is one. -/
def statements (d : Sequence) : List Statement :=
  (if d.title = "" then [] else [.title d.title])
    ++ d.participants.map (fun p => .participant p.id p.label) ++ d.messages.map .message
    ++ d.notes.map fun n => .note n.participants n.text

variable {d : Sequence}

namespace Writable

theorem isPhrase_title (h : d.Writable) (hne : d.title ≠ "") : IsPhrase d.title.toList :=
  h.title.resolve_left hne

theorem isWord_id (h : d.Writable) {p : Participant} (hp : p ∈ d.participants) : IsWord p.id.toList :=
  h.ids p.id (List.mem_map_of_mem hp)

theorem isWord_ends (h : d.Writable) {m : Message} (hm : m ∈ d.messages) :
    IsWord m.source.toList ∧ IsWord m.target.toList :=
  (h.ends m hm).imp (h.ids _) (h.ids _)

theorem isWord_noteIds (h : d.Writable) {n : Note} (hn : n ∈ d.notes) :
    ∀ id ∈ n.participants, IsWord id.toList :=
  fun id hid => h.ids id ((h.noteIds n hn).2.2 id hid)

/-- Every line of a writable diagram is a statement as it stands, so none is
    trimmed or passed over and none opens a block of settings. -/
theorem isStatement_of_mem_toLines (h : d.Writable) : ∀ line ∈ d.toLines, IsStatement line := by
  intro line hline
  simp only [toLines, List.mem_cons, List.mem_append, List.mem_map] at hline
  obtain rfl | ((htitle | ⟨p, hp, rfl⟩) | ⟨m, hm, rfl⟩) | ⟨n, hn, rfl⟩ := hline
  · exact ⟨by decide, by decide, fun c hc => Option.some.inj hc ▸ by decide⟩
  · split at htitle
    · cases htitle
    · rw [List.mem_singleton.mp htitle]
      exact isStatement_titleLine (h.isPhrase_title ‹_›)
  · exact isStatement_participantLine (h.isWord_id hp) (h.labels p hp)
  · exact isStatement_messageLine (h.isWord_ends hm).1 (h.isWord_ends hm).2 (h.messageTexts m hm)
  · exact isStatement_noteLine (h.noteIds n hn).1 (h.isWord_noteIds hn) (h.noteTexts n hn)

/-- The lines of a writable diagram behind the first state what they were
    written for, each by itself. -/
theorem filterMap_ofLine?_toLines (h : d.Writable) : d.toLines.tail.filterMap Statement.ofLine? = d.statements := by
  have htitle : (if d.title = "" then [] else [titleLine d.title]).filterMap Statement.ofLine? =
      if d.title = "" then [] else [.title d.title] := by
    split
    · rfl
    · rw [List.filterMap_cons_some (ofLine?_titleLine (h.isPhrase_title ‹_›)), List.filterMap_nil]
  have hparticipants : (d.participants.map participantLine).filterMap Statement.ofLine? =
      d.participants.map fun p => .participant p.id p.label :=
    filterMap_map_eq_map fun p hp => ofLine?_participantLine (h.isWord_id hp) (h.labels p hp)
  have hmessages : (d.messages.map messageLine).filterMap Statement.ofLine? = d.messages.map .message :=
    filterMap_map_eq_map fun m hm =>
      ofLine?_messageLine (h.isWord_ends hm).1 (h.isWord_ends hm).2 (h.messageTexts m hm)
  have hnotes : (d.notes.map noteLine).filterMap Statement.ofLine? =
      d.notes.map fun n => .note n.participants n.text :=
    filterMap_map_eq_map fun n hn =>
      ofLine?_noteLine (h.noteIds n hn).1 (h.noteIds n hn).2.1 (h.isWord_noteIds hn) (h.noteTexts n hn)
  rw [toLines, List.tail_cons, List.filterMap_append, List.filterMap_append, List.filterMap_append, htitle,
    hparticipants, hmessages, hnotes, statements]

end Writable

section Stated

/-- A diagram has one title at most, and it is the one that its statements give.
    No title is written as no line, which is read as the empty title. -/
theorem titles_statements (d : Sequence) : (d.statements.flatMap Statement.titles).getLast?.getD "" = d.title := by
  by_cases htitle : d.title = ""
  · simp [statements, htitle, List.flatMap_map, Statement.titles, flatMap_nil_fun]
  · simp [statements, htitle, List.flatMap_map, Statement.titles, flatMap_nil_fun]

/-- The messages that the statements give are those of the diagram, in order. -/
theorem messages_statements (d : Sequence) : d.statements.flatMap Statement.messages = d.messages := by
  have htitle : (if d.title = "" then [] else [.title d.title]).flatMap Statement.messages = [] := by split <;> rfl
  simp [statements, htitle, List.flatMap_map, Statement.messages, flatMap_nil_fun]

/-- The notes that the statements give are those of the diagram, in order. -/
theorem notes_statements (d : Sequence) : d.statements.flatMap Statement.notes = d.notes := by
  have htitle : (if d.title = "" then [] else [.title d.title]).flatMap Statement.notes = [] := by split <;> rfl
  simp [statements, htitle, List.flatMap_map, Statement.notes, flatMap_nil_fun]

/-- The participants that the messages and the notes mention, in order. -/
def mentioned (d : Sequence) : List String :=
  d.messages.flatMap (fun m => [m.source, m.target]) ++ d.notes.flatMap Note.participants

/-- The statements name the participants with their labels first, and then those
    that messages and notes mention. -/
theorem names_statements (d : Sequence) : d.statements.flatMap Statement.names =
    (d.participants.map fun p => (p.id, p.label)).map Naming.labelled ++ d.mentioned.map Naming.unlabelled := by
  have htitle : (if d.title = "" then [] else [.title d.title]).flatMap Statement.names = [] := by split <;> rfl
  have hparticipants : (d.participants.map fun p => .participant p.id p.label).flatMap Statement.names =
      (d.participants.map fun p => (p.id, p.label)).map Naming.labelled := by
    rw [List.flatMap_map, List.map_map, List.map_eq_flatMap]
    rfl
  simp [statements, htitle, hparticipants, mentioned, List.flatMap_map, List.map_flatMap, Statement.names]

end Stated

/-- The participants that are named are those of the diagram, as they stand
    there: each is given its label once, and nothing else is mentioned. -/
theorem Writable.participants_stated (h : d.Writable) :
    participantsOf (Naming.known (d.statements.flatMap Statement.names)) = d.participants := by
  have hids : (d.participants.map fun p => (p.id, p.label)).map Prod.fst = d.participantIds := List.map_map
  have hmentioned : ∀ id ∈ d.mentioned, id ∈ (d.participants.map fun p => (p.id, p.label)).map Prod.fst := by
    intro id hid
    rw [hids]
    rcases List.mem_append.mp hid with hid | hid
    · obtain ⟨m, hm, hend⟩ := List.mem_flatMap.mp hid
      rcases List.mem_pair.mp hend with rfl | rfl
      · exact (h.ends m hm).1
      · exact (h.ends m hm).2
    · obtain ⟨n, hn, hid⟩ := List.mem_flatMap.mp hid
      exact (h.noteIds n hn).2.2 id hid
  rw [names_statements, Naming.known_of_nodup (hids ▸ h.nodup) hmentioned, participantsOf, List.map_map]
  exact List.map_id d.participants

/-- The lines of a diagram that can be written are those of the diagram. The
    settings are no part of them and are whatever was found in front. -/
theorem ofLines_toLines (h : d.Writable) (config : Config) :
    ofLines d.toLines.tail config = { d with config } := by
  rw [ofLines_eq, h.filterMap_ofLine?_toLines, stated, titles_statements, h.participants_stated,
    messages_statements,
    notes_statements]

end Sequence

/-- The text of a sequence diagram that can be written is the text of that
    diagram, less its settings, which are no part of the text. This is so for
    every reader of settings. -/
theorem Diagram.ofText_sequenceText [YamlReader] {d : Sequence} (h : d.Writable) :
    Diagram.ofText d.toText = .sequence { d with config := ∅ } := by
  have hne : d.toLines ≠ [] := List.cons_ne_nil _ _
  rw [Sequence.toText, ofText_joinLines hne h.isStatement_of_mem_toLines, ofStatements_eq_sequence_iff]
  exact ⟨rfl, (Sequence.ofLines_toLines h ∅).symm⟩

namespace Sequence

/-- A diagram in which the participants are named like keywords, and the texts
    look like other lines. -/
def keywords : Sequence where
  title := "note over a: b->c"
  participants := [⟨"title", "as"⟩, ⟨"Actor", "title x"⟩, ⟨"note", "a --> b: c"⟩, ⟨"as", ": :"⟩]
  messages := [⟨"title", "note", ">: x", .solid⟩, ⟨"Actor", "as", "-->> y", .dashed⟩,
    ⟨"note", "note", "#", .async⟩]
  notes := [⟨["as", "title"], "over: z"⟩, ⟨["note"], "---"⟩]

theorem writable_keywords : keywords.Writable where
  ids := by decide
  nodup := by decide
  title := by decide
  labels := by decide
  ends := by decide
  messageTexts := by decide
  noteIds := by decide
  noteTexts := by decide

end Sequence

/-- Participants that are named like keywords, and texts that look like other
    lines, are read back as what they are. -/
theorem Diagram.ofText_sequenceText_keywords :
    Sequence.keywords.Writable ∧ Diagram.ofText Sequence.keywords.toText = .sequence Sequence.keywords :=
  ⟨Sequence.writable_keywords, Diagram.ofText_sequenceText Sequence.writable_keywords⟩

end LiveDiagram
