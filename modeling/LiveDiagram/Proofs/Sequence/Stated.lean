import LiveDiagram.Proofs.Source.Naming
import LiveDiagram.Proofs.Source.Statements
import LiveDiagram.Sequence.Reader

namespace LiveDiagram

namespace Sequence

namespace Statement

/-- The title that a statement gives, if it gives one. -/
def titles : Statement → List String
  | title text => [text]
  | _ => []

/-- The message that a statement gives, if it gives one. -/
def messages : Statement → List Message
  | message m => [m]
  | _ => []

/-- The note that a statement gives, if it gives one. -/
def notes : Statement → List Note
  | note ids text => [{ participants := ids, text }]
  | _ => []

/-- The participants that are named in a statement, from left to right. -/
def names : Statement → List Naming
  | title _ => []
  | participant id label => [(id, some label)]
  | note ids _ => ids.map Naming.unlabelled
  | message m => [(m.source, none), (m.target, none)]

/-- The ids of those participants. -/
def ids : Statement → List String
  | title _ => []
  | participant id _ => [id]
  | note ids _ => ids
  | message m => [m.source, m.target]

/-- The names in a statement are the ids that it mentions, in order. -/
theorem map_fst_names (s : Statement) : s.names.map Prod.fst = s.ids := by
  cases s with
  | note ids text => exact Naming.map_fst_unlabelled ids
  | title text => rfl
  | participant id label => rfl
  | message m => rfl

/-- A list of ids is read as its distinct parts, without the blanks around them
    and without empty ones. -/
theorem distinctIds_eq (s : List Char) :
    distinctIds s = (((Text.splitOn ',' s).map Text.trim).filter fun id => !id.isEmpty).eraseDups := by
  unfold distinctIds
  generalize ((Text.splitOn ',' s).map Text.trim).filter (fun id => !id.isEmpty) = parts
  induction parts using List.reverseRecOn with
  | nil => rfl
  | append_singleton parts id ih =>
    rw [List.foldl_append, ih, List.foldl_cons, List.foldl_nil, eraseDups_append_singleton]
    simp

end Statement

section Participants

/-- The participant with that id and that label. -/
def participantOf (entry : String × String) : Participant where
  id := entry.1
  label := entry.2

/-- The participants with these ids and labels. -/
def participantsOf (known : List (String × String)) : List Participant :=
  known.map participantOf

variable {known : List (String × String)}

/-- The ids of participants are the names that they were made for. -/
theorem map_id_participantsOf (known : List (String × String)) :
    (participantsOf known).map Participant.id = known.map Prod.fst := by
  rw [participantsOf, List.map_map]
  rfl

/-- Declaring a participant is an appearance of its id with a label. -/
theorem declare_participantsOf (known : List (String × String)) (id label : String) :
    declare (participantsOf known) id label = participantsOf (Naming.appear known (id, some label)) :=
  (Naming.map_appear_labelled participantOf Participant.id (fun _ => rfl) (fun p => { p with label }) known id label
    fun _ => rfl).symm

/-- Mentioning a participant is an appearance of its id without a label. -/
theorem mention_participantsOf (known : List (String × String)) (id : String) :
    mention (participantsOf known) id = participantsOf (Naming.appear known (id, none)) :=
  (Naming.map_appear_unlabelled participantOf Participant.id (fun _ => rfl) known id).symm

/-- Mentioning participants one after the other is an appearance of each. -/
theorem foldl_mention_participantsOf (known : List (String × String)) (ids : List String) :
    ids.foldl mention (participantsOf known) =
      participantsOf ((ids.map Naming.unlabelled).foldl Naming.appear known) := by
  rw [List.foldl_map]
  exact List.foldl_hom participantsOf mention_participantsOf

end Participants

/-- The diagram that the statements make up, told at once: the last title, the
    messages and the notes in order, and the participants as names that
    appear. -/
def stated (statements : List Statement) (config : Config) : Sequence where
  title := (statements.flatMap Statement.titles).getLast?.getD ""
  participants := participantsOf (Naming.known (statements.flatMap Statement.names))
  messages := statements.flatMap Statement.messages
  notes := statements.flatMap Statement.notes
  config

/-- One more statement changes the diagram as the reader changes it, which takes
    statements one after another. -/
theorem stated_append_singleton (statements : List Statement) (s : Statement) (config : Config) :
    stated (statements ++ [s]) config = (stated statements config).state s := by
  cases s with
  | title text => simp [stated, state, Statement.titles, Statement.names, Statement.messages, Statement.notes]
  | participant id label =>
    simp [stated, state, Statement.titles, Statement.names, Statement.messages, Statement.notes,
      declare_participantsOf, Naming.known_append_singleton]
  | note ids text =>
    simp [stated, state, Statement.titles, Statement.names, Statement.messages, Statement.notes,
      foldl_mention_participantsOf, ← Naming.foldl_appear, List.foldl_append]
  | message m =>
    simp [stated, state, Statement.titles, Statement.names, Statement.messages, Statement.notes,
      mention_participantsOf, ← Naming.foldl_appear, List.foldl_append]

/-- The diagram of some lines is what their statements make up. The induction is
    on the statements from the end, since each is put to what those before it
    have made. -/
theorem ofLines_eq (lines : List (List Char)) (config : Config) :
    ofLines lines config = stated (lines.filterMap Statement.ofLine?) config := by
  unfold ofLines
  generalize lines.filterMap Statement.ofLine? = statements
  induction statements using List.reverseRecOn with
  | nil => rfl
  | append_singleton statements s ih =>
    rw [List.foldl_append, ih, List.foldl_cons, List.foldl_nil, stated_append_singleton]

section Lines

/-- The names in a line, from left to right, with the label that it gives. -/
def namesIn (line : List Char) : List Naming :=
  (Statement.ofLine? line).elim [] Statement.names

/-- The ids of the participants that a line names, from left to right. -/
def idsIn (line : List Char) : List String :=
  (Statement.ofLine? line).elim [] Statement.ids

variable {lines : List (List Char)}

/-- The names in a line are the ids that it mentions, in order. -/
theorem map_fst_namesIn (line : List Char) : (namesIn line).map Prod.fst = idsIn line := by
  rw [namesIn, idsIn]
  cases Statement.ofLine? line with
  | none => rfl
  | some s => exact s.map_fst_names

/-- The participants of a diagram are the names that appear in its lines, each
    at its first place and with the label that it is given last. -/
theorem participants_ofLines (lines : List (List Char)) (config : Config) :
    (ofLines lines config).participants = participantsOf (Naming.known (lines.flatMap namesIn)) := by
  have hnames : (lines.filterMap Statement.ofLine?).flatMap Statement.names = lines.flatMap namesIn := by
    rw [List.filterMap_eq_flatMap_toList, List.flatMap_assoc]
    refine List.flatMap_congr fun line _ => ?_
    rw [namesIn]
    cases Statement.ofLine? line <;> simp
  rw [ofLines_eq, stated, hnames]

end Lines

/-- The ids of the participants, from left to right. -/
def participantIds (d : Sequence) : List String :=
  d.participants.map Participant.id

/-- The ids of the participants, each read off the participant at its place. -/
theorem zipIdx_participantIds (d : Sequence) :
    d.participants.zipIdx.map (·.1.id) = d.participants.map Participant.id := by
  have hmap := congrArg (List.map Participant.id) (List.zipIdx_map_fst 0 d.participants)
  rwa [List.map_map] at hmap

/-- The last participant with that id, and its index. -/
def lastPlace? (d : Sequence) (id : String) : Option (Participant × Nat) :=
  d.participants.zipIdx.reverse.find? fun x => x.1.id == id

section Places

variable {d : Sequence} {id : String}

theorem id_of_lastPlace? {x : Participant × Nat} (hx : d.lastPlace? id = some x) : x.1.id = id := by
  simpa using List.find?_some hx

/-- A participant has a last place just if its id is among those of the
    diagram. -/
theorem lastPlace?_isSome : (d.lastPlace? id).isSome ↔ id ∈ d.participantIds := by
  rw [participantIds, ← d.zipIdx_participantIds, lastPlace?, List.find?_isSome]
  simp

theorem lastPlace?_eq_none : d.lastPlace? id = none ↔ id ∉ d.participantIds := by
  rw [← lastPlace?_isSome, Option.not_isSome_iff_eq_none]

/-- Where no id is there twice, the last place of a participant is the place of
    its id. -/
theorem index_of_lastPlace? (hd : d.participantIds.Nodup) {x : Participant × Nat}
    (hx : d.lastPlace? id = some x) : x.2 = d.participantIds.idxOf id := by
  have hmem : x ∈ d.participants.zipIdx := List.mem_reverse.mp (List.mem_of_find?_eq_some hx)
  obtain ⟨hlt, hget⟩ : ∃ h : x.2 < d.participants.length, d.participants[x.2] = x.1 := by
    have hfound := List.mem_zipIdx_iff_getElem?.mp hmem
    exact List.getElem?_eq_some_iff.mp hfound
  have hlength : x.2 < d.participantIds.length := by rwa [participantIds, List.length_map]
  have hid : d.participantIds[x.2] = id := by
    rw [← id_of_lastPlace? hx, ← hget]
    exact List.getElem_map Participant.id
  rw [← hid, hd.idxOf_getElem]

end Places

/-- The participants of a diagram stand where its lines name them first, line by
    line and from left to right. -/
theorem participantIds_ofLines (lines : List (List Char)) (config : Config) :
    (ofLines lines config).participantIds = (lines.flatMap idsIn).eraseDups := by
  rw [participantIds, participants_ofLines, map_id_participantsOf, Naming.map_fst_known, List.map_flatMap]
  simp only [map_fst_namesIn]

theorem nodup_participantIds_ofLines (lines : List (List Char)) (config : Config) :
    (ofLines lines config).participantIds.Nodup := by
  rw [participantIds_ofLines]
  exact nodup_eraseDups _

/-- The diagram is that of a text, with settings that may stand in front of
    it. -/
def OfText (d : Sequence) : Prop :=
  (Diagram.sequence d).OfText

/-- No participant of a diagram that a text states is there twice, under
    whatever settings. -/
theorem OfText.nodup {d : Sequence} (hd : d.OfText) : d.participantIds.Nodup := by
  obtain ⟨text, config, htext⟩ := hd
  rw [(Diagram.ofStatements_eq_sequence_iff.mp htext.symm).2]
  exact nodup_participantIds_ofLines _ _

end Sequence

end LiveDiagram
