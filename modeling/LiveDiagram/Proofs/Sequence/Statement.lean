import LiveDiagram.Proofs.Source.Keys
import LiveDiagram.Proofs.Sequence.Stated
import LiveDiagram.Proofs.Source.Statements
import LiveDiagram.Proofs.Text.Lines
import LiveDiagram.Proofs.Text.Reading

namespace LiveDiagram

namespace Sequence

/-- The ends of a message that a line states are words. -/
theorem Statement.isWord_of_message? {line : List Char} {m : Message} (h : message? line = some m) :
    Text.IsWord m.source.toList ∧ Text.IsWord m.target.toList := by
  unfold message? at h
  simp only [Option.bind_eq_bind, Option.bind_eq_some_iff, Option.pure_def, Option.some.injEq] at h
  obtain ⟨⟨source, s⟩, hsource, ⟨style, s'⟩, -, ⟨target, s''⟩, htarget, _, -, _, -, rfl⟩ := h
  rw [String.toList_ofList, String.toList_ofList]
  exact ⟨Text.isWord_of_word? hsource, Text.isWord_of_word? htarget⟩

/-- A line states what one of the four forms reads of it, in the order in which
    they are tried. -/
theorem Statement.cases_of_ofLine? {line : List Char} {s : Statement} (h : ofLine? line = some s) :
    (∃ text, title? (Text.trim line) = some text ∧ s = .title (String.ofList text)) ∨
    (∃ id label, participant? (Text.trim line) = some (id, label) ∧
      s = .participant (String.ofList id) (String.ofList label)) ∨
    (∃ ids text, note? (Text.trim line) = some (ids, text) ∧
      s = .note (ids.map String.ofList) (String.ofList text)) ∨
    ∃ m, message? (Text.trim line) = some m ∧ s = .message m := by
  unfold ofLine? at h
  dsimp only at h
  split at h
  · cases h
  · simp only [Option.orElse_eq_orElse, Option.orElse_eq_or, Option.or_eq_some_iff,
      Option.map_eq_some_iff] at h
    rcases h with ⟨text, htext, rfl⟩ |
      ⟨-, ⟨⟨id, label⟩, hid, rfl⟩ | ⟨-, ⟨⟨ids, text⟩, hids, rfl⟩ | ⟨-, m, hm, rfl⟩⟩⟩
    · exact .inl ⟨text, htext, rfl⟩
    · exact .inr (.inl ⟨id, label, hid, rfl⟩)
    · exact .inr (.inr (.inl ⟨ids, text, hids, rfl⟩))
    · exact .inr (.inr (.inr ⟨m, hm, rfl⟩))

/-- A message that a line states has no bar in the ids of its ends, which are
    words. -/
theorem Statement.barFree_of_ofLine? {line : List Char} {m : Message}
    (h : ofLine? line = some (.message m)) : m.BarFree := by
  obtain ⟨_, _, h⟩ | ⟨_, _, _, h⟩ | ⟨_, _, _, h⟩ | ⟨_, hm, h⟩ := cases_of_ofLine? h
  all_goals cases h
  obtain ⟨hsource, htarget⟩ := isWord_of_message? hm
  exact ⟨hsource.not_mem (by decide), htarget.not_mem (by decide)⟩

/-- The parts of a list of ids are made of its characters, commas apart. -/
theorem Statement.chars_of_mem_distinctIds {s id : List Char} (hid : id ∈ distinctIds s) :
    ∀ c ∈ id, c ∈ s ∧ c ≠ ',' := by
  intro c hc
  rw [distinctIds_eq, List.mem_eraseDups, List.mem_filter] at hid
  obtain ⟨part, hpart, rfl⟩ := List.mem_map.mp hid.1
  have hmem : c ∈ part := Text.mem_of_mem_trim hc
  exact ⟨Text.mem_of_mem_splitOn hpart hmem, ne_of_mem_of_not_mem hmem (Text.not_mem_of_mem_splitOn hpart)⟩

/-- The participants of a note are the distinct parts of a list of ids. -/
theorem Statement.exists_of_note? {line : List Char} {ids : List (List Char)} {text : List Char}
    (h : note? line = some (ids, text)) :
    ∃ listed, (∀ c ∈ listed, isIdListChar c) ∧ ids = distinctIds listed := by
  unfold note? idList? at h
  simp only [Option.bind_eq_bind, Option.bind_eq_some_iff, Option.pure_def, Option.some.injEq,
    Prod.mk.injEq] at h
  obtain ⟨_, -, _, -, s, -, ⟨listed, _⟩, ⟨_, hlisted, _, -, rfl, -⟩, _, -, rfl, -⟩ := h
  refine ⟨_, fun c hc => ?_, rfl⟩
  exact List.mem_takeWhile_imp ((Text.of_afterSpaces hlisted).2.subset hc)

/-- A note that a line states names each participant once, however often the
    line does. -/
theorem Statement.nodup_of_note? {line : List Char} {ids : List (List Char)} {text : List Char}
    (h : note? line = some (ids, text)) : ids.Nodup := by
  obtain ⟨listed, -, rfl⟩ := exists_of_note? h
  rw [distinctIds_eq]
  exact nodup_eraseDups _

/-- The ids of a note that a line states are distinct as texts too. -/
theorem Statement.nodup_of_ofLine? {line : List Char} {ids : List String} {text : String}
    (h : ofLine? line = some (.note ids text)) : ids.Nodup := by
  obtain ⟨_, _, h⟩ | ⟨_, _, _, h⟩ | ⟨ids, _, hids, h⟩ | ⟨_, _, h⟩ := cases_of_ofLine? h
  all_goals cases h
  exact (nodup_of_note? hids).map fun _ _ => String.ofList_injective

/-- The messages of a diagram are those that its lines state, and no settings
    change that. -/
theorem mem_messages_ofLines {lines : List (List Char)} {config : Config} {m : Message} :
    m ∈ (ofLines lines config).messages ↔ ∃ line ∈ lines, Statement.ofLine? line = some (.message m) := by
  rw [ofLines_eq]
  simp only [stated, List.mem_flatMap, List.mem_filterMap]
  constructor
  · rintro ⟨s, ⟨line, hline, hs⟩, hm⟩
    cases s
    all_goals simp only [Statement.messages, List.mem_singleton, List.not_mem_nil] at hm
    exact ⟨line, hline, hm ▸ hs⟩
  · rintro ⟨line, hline, hs⟩
    exact ⟨.message m, ⟨line, hline, hs⟩, List.mem_singleton_self m⟩

/-- The notes of a diagram are those that its lines state. -/
theorem mem_notes_ofLines {lines : List (List Char)} {config : Config} {n : Note} :
    n ∈ (ofLines lines config).notes ↔
      ∃ line ∈ lines, Statement.ofLine? line = some (.note n.participants n.text) := by
  rw [ofLines_eq]
  simp only [stated, List.mem_flatMap, List.mem_filterMap]
  constructor
  · rintro ⟨s, ⟨line, hline, hs⟩, hn⟩
    cases s
    all_goals simp only [Statement.notes, List.mem_singleton, List.not_mem_nil] at hn
    exact ⟨line, hline, hn ▸ hs⟩
  · rintro ⟨line, hline, hs⟩
    exact ⟨.note n.participants n.text, ⟨line, hline, hs⟩, List.mem_singleton_self n⟩

/-- No note of a diagram that lines state names a participant twice. -/
theorem nodup_ofLines {lines : List (List Char)} {config : Config} :
    ∀ n ∈ (ofLines lines config).notes, n.participants.Nodup := by
  intro n hn
  obtain ⟨line, -, hline⟩ := mem_notes_ofLines.mp hn
  exact Statement.nodup_of_ofLine? hline

/-- No message of a diagram that lines state has a bar in the ids of its
    ends. -/
theorem barFree_ofLines {lines : List (List Char)} {config : Config} :
    ∀ m ∈ (ofLines lines config).messages, m.BarFree := by
  intro m hm
  obtain ⟨line, -, hline⟩ := mem_messages_ofLines.mp hm
  exact Statement.barFree_of_ofLine? hline

end Sequence

/-- No message that a text states has a bar in the ids of its ends, so the keys
    of messages tell them apart. -/
theorem Diagram.OfText.barFree {d : Sequence} (h : (Diagram.sequence d).OfText) :
    ∀ m ∈ d.messages, m.BarFree := by
  obtain ⟨text, config, htext⟩ := h
  rw [(ofStatements_eq_sequence_iff.mp htext.symm).2]
  exact Sequence.barFree_ofLines

/-- No note that a text states names a participant twice, so it is listed at
    each of them once. -/
theorem Diagram.OfText.nodup_notes {d : Sequence} (h : (Diagram.sequence d).OfText) :
    ∀ n ∈ d.notes, n.participants.Nodup := by
  obtain ⟨text, config, htext⟩ := h
  rw [(ofStatements_eq_sequence_iff.mp htext.symm).2]
  exact Sequence.nodup_ofLines

end LiveDiagram
