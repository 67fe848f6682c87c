import LiveDiagram.Proofs.Sequence.ParticipantLine
import LiveDiagram.Proofs.Sequence.Stated

namespace LiveDiagram

open Text

namespace Sequence

section Ids

variable {line : List Char} {id : String}

theorem mem_idsIn : id ∈ idsIn line ↔ ∃ s, Statement.ofLine? line = some s ∧ id ∈ s.ids := by
  rw [idsIn]
  cases Statement.ofLine? line <;> simp

/-- What a line names is a participant of the diagram. -/
theorem mem_participantIds_ofLines {lines : List (List Char)} {config : Config} {s : Statement}
    (hline : line ∈ lines)
    (hs : Statement.ofLine? line = some s) (hid : id ∈ s.ids) : id ∈ (ofLines lines config).participantIds := by
  rw [participantIds_ofLines, List.mem_eraseDups, List.mem_flatMap]
  exact ⟨line, hline, mem_idsIn.mpr ⟨s, hs, hid⟩⟩

/-- Nothing but word characters and white space stands in the id of a
    participant. White space comes from the list of a note only, where ids are
    separated by commas. -/
theorem Statement.chars_of_mem_ids {s : Statement} (hs : ofLine? line = some s) (hid : id ∈ s.ids) :
    ∀ c ∈ id.toList, isWordChar c ∨ isSpace c := by
  obtain ⟨_, _, rfl⟩ | ⟨word, _, hread, rfl⟩ | ⟨ids, _, hread, rfl⟩ | ⟨m, hread, rfl⟩ :=
    cases_of_ofLine? hs
  · cases hid
  · obtain rfl := List.mem_singleton.mp hid
    intro c hc
    rw [String.toList_ofList] at hc
    exact .inl ((isWord_of_participant? hread).2 c hc)
  · obtain ⟨part, hpart, rfl⟩ := List.mem_map.mp hid
    obtain ⟨listed, hlisted, rfl⟩ := exists_of_note? hread
    intro c hc
    rw [String.toList_ofList] at hc
    obtain ⟨hmem, hcomma⟩ := chars_of_mem_distinctIds hpart c hc
    simpa [isIdListChar, hcomma] using hlisted c hmem
  · obtain ⟨hsource, htarget⟩ := isWord_of_message? hread
    rcases List.mem_pair.mp hid with rfl | rfl
    · exact fun c hc => .inl (hsource.2 c hc)
    · exact fun c hc => .inl (htarget.2 c hc)

end Ids

section Labels

/-- The line is that of the participant, and the label is the one behind `as`,
    or the id if there is none. -/
def Declares (line : List Char) (id label : String) : Prop :=
  ∃ given, ParticipantLine (trim line) id.toList given ∧ label = String.ofList (given.getD id.toList)

/-- The label of a participant is the one in the last of the lines that is a
    line of the participant, or it is the id if none of them is. -/
def LastLabel (lines : List (List Char)) (id label : String) : Prop :=
  (∃ before line after, lines = before ++ line :: after ∧ Declares line id label ∧
    ∀ later ∈ after, ∀ other, ¬Declares later id other) ∨
  (∀ line ∈ lines, ∀ other, ¬Declares line id other) ∧ label = id

variable {lines : List (List Char)} {id label : String}

/-- Only the statement of a participant gives it a label. -/
theorem lastLabel?_names {s : Statement} :
    Naming.lastLabel? s.names id = some label ↔ s = .participant id label := by
  cases s with
  | participant other given =>
    rw [Statement.names, Naming.lastLabel?_singleton]
    simp
  | title text => simp [Statement.names, Naming.lastLabel?]
  | note ids text =>
    have hnone : Naming.lastLabel? (Statement.note ids text).names id = none :=
      Naming.lastLabel?_unlabelled ids id
    simp [hnone]
  | message m =>
    have hnone : Naming.lastLabel? (Statement.message m).names id = none :=
      Naming.lastLabel?_eq_none fun n hn _ => by
        rcases List.mem_pair.mp hn with rfl | rfl <;> rfl
    simp [hnone]

/-- Only the line of a participant gives it a label, which is the one behind
    `as` or the id. -/
theorem lastLabel?_namesIn {line : List Char} :
    Naming.lastLabel? (namesIn line) id = some label ↔ Declares line id label := by
  rw [Declares, ← Statement.ofLine?_eq_participant_iff, namesIn]
  cases Statement.ofLine? line with
  | none => simp [Naming.lastLabel?]
  | some s => simp [lastLabel?_names]

/-- The label that is given last is that of the last line which declares the
    participant, and without such a line it is the id. The induction is on the
    lines from the end. -/
theorem lastLabel_getD : LastLabel lines id ((Naming.lastLabel? (lines.flatMap namesIn) id).getD id) := by
  have hnone : ∀ {line : List Char}, Naming.lastLabel? (namesIn line) id = none →
      ∀ other, ¬Declares line id other := by
    intro line hline other hother
    rw [lastLabel?_namesIn.mpr hother] at hline
    cases hline
  rw [Naming.lastLabel?_flatMap]
  cases hlast : lines.reverse.findSome? fun line => Naming.lastLabel? (namesIn line) id with
  | none =>
    refine .inr ⟨fun line hline => hnone ?_, rfl⟩
    exact List.findSome?_eq_none_iff.mp hlast line (List.mem_reverse.mpr hline)
  | some label =>
    obtain ⟨after, line, before, hlines, hline, hafter⟩ := List.findSome?_eq_some_iff.mp hlast
    refine .inl ⟨before.reverse, line, after.reverse, ?_, lastLabel?_namesIn.mp hline, fun later hlater => ?_⟩
    · simpa using congrArg List.reverse hlines
    · exact hnone (hafter later (List.mem_reverse.mp hlater))

/-- Each participant has its last label: what was given to it before, and where
    it was only mentioned, is not seen. -/
theorem lastLabel_of_mem_participants {config : Config} {p : Participant}
    (hp : p ∈ (ofLines lines config).participants) : LastLabel lines p.id p.label := by
  rw [participants_ofLines, participantsOf, Naming.known, List.map_map] at hp
  obtain ⟨id, -, rfl⟩ := List.mem_map.mp hp
  exact lastLabel_getD

end Labels

/-- A sequence diagram that agrees with its lines: its messages and notes have
    their participants, and a participant stands where a line names it first. -/
structure WellFormed (d : Sequence) (lines : List (List Char)) : Prop where
  nodup : d.participantIds.Nodup
  plain : ∀ id ∈ d.participantIds, ∀ c ∈ ['|', '&', ':'], c ∉ id.toList
  ends : ∀ m ∈ d.messages, m.source ∈ d.participantIds ∧ m.target ∈ d.participantIds
  noteIds : ∀ n ∈ d.notes, n.participants.Nodup ∧ ∀ id ∈ n.participants, id ∈ d.participantIds
  /-- Each participant stands where it is named first, line by line and from
      left to right. -/
  order : d.participantIds = (lines.flatMap idsIn).eraseDups
  labels : ∀ p ∈ d.participants, LastLabel lines p.id p.label

/-- Lines state a well-formed diagram, whatever the lines are and whatever the
    settings. -/
theorem wellFormed_ofLines (lines : List (List Char)) (config : Config) :
    (ofLines lines config).WellFormed lines where
  nodup := nodup_participantIds_ofLines lines config
  plain id hid c hc hmem := by
    rw [participantIds_ofLines, List.mem_eraseDups, List.mem_flatMap] at hid
    obtain ⟨line, -, hid⟩ := hid
    obtain ⟨s, hs, hid⟩ := mem_idsIn.mp hid
    have hchar : (isWordChar c || isSpace c) = true :=
      Bool.or_eq_true_iff.mpr (Statement.chars_of_mem_ids hs hid c hmem)
    have hnone : ['|', '&', ':'].all fun c => !(isWordChar c || isSpace c) := by decide
    have hother := List.all_eq_true.mp hnone c hc
    rw [hchar] at hother
    cases hother
  ends m hm := by
    obtain ⟨line, hline, hs⟩ := mem_messages_ofLines.mp hm
    exact ⟨mem_participantIds_ofLines hline hs List.mem_cons_self,
      mem_participantIds_ofLines hline hs (List.mem_cons_of_mem _ List.mem_cons_self)⟩
  noteIds n hn := by
    obtain ⟨line, hline, hs⟩ := mem_notes_ofLines.mp hn
    exact ⟨Statement.nodup_of_ofLine? hs, fun id hid => mem_participantIds_ofLines hline hs hid⟩
  order := participantIds_ofLines lines config
  labels p hp := lastLabel_of_mem_participants hp

end Sequence

/-- A text that states a sequence diagram states a well-formed one. Nothing is
    asked of the text but that its first statement speaks of a sequence
    diagram. -/
theorem Diagram.wellFormed_sequence [YamlReader] {text : String} {d : Sequence} (h : ofText text = .sequence d) :
    d.WellFormed (statementLines text).tail := by
  rw [(ofText_eq_sequence_iff.mp h).2]
  exact Sequence.wellFormed_ofLines _ _

namespace Sequence

/-- A text in which participants are named before they are declared, and one is
    declared three times. -/
def severallyDeclaredText : String :=
  "sequence\nactor b as Bob\na->>b: hi\nnote over c d,, a ,c d: both\nParticipant a AS Ann\nactor a"

/-- The diagram of that text. The last line takes the label of `a` away. -/
def severallyDeclared : Sequence where
  participants := [⟨"b", "Bob"⟩, ⟨"a", "a"⟩, ⟨"c d", "c d"⟩]
  messages := [⟨"a", "b", "hi", .async⟩]
  notes := [⟨["c d", "a"], "both"⟩]

end Sequence

/-- The text in which one participant is declared three times, and others before
    they are declared. -/
theorem Diagram.wellFormed_sequence_severallyDeclared :
    ofText Sequence.severallyDeclaredText = .sequence Sequence.severallyDeclared ∧
      Sequence.severallyDeclared.WellFormed (statementLines Sequence.severallyDeclaredText).tail :=
  ⟨rfl, wellFormed_sequence rfl⟩

end LiveDiagram
