import LiveDiagram.Style.NodeStyle
import LiveDiagram.Timeline.Drawing

namespace LiveDiagram

/-- The distance between participants that a configuration sets. -/
def Config.participantSpacing {α : Type} [Scalar α] (config : Config) : α :=
  (config["participant_spacing"]?.bind fun value => NodeStyle.positive? value.toList).getD
    Layout.participantSpacing

namespace TimelineStage

variable {α : Type} [Scalar α]

/-- Removes a message from the timeline and the surface. -/
def removeMessage (s : TimelineStage α) (key : String) : TimelineStage α :=
  match s.picture.messages[key]? with
  | none => s
  | some m =>
    let t := (s.picture.unlinkMessage key m.message.source).unlinkMessage key m.message.target
    (s.set { t with messages := t.messages.erase key }).eraseParts (MessageItem.partIds key)

/-- Removes a note from the timeline and the surface. -/
def removeNote (s : TimelineStage α) (key : String) : TimelineStage α :=
  match s.picture.notes[key]? with
  | none => s
  | some n =>
    let t := n.note.participants.foldl (fun t id => t.unlinkNote key id) s.picture
    (s.set { t with notes := t.notes.erase key }).eraseParts (NoteItem.partIds key)

/-- Removes a participant with all its messages and notes from the timeline and
    the surface. -/
def removeParticipant (s : TimelineStage α) (id : String) : TimelineStage α :=
  match s.picture.participants[id]? with
  | none => s
  | some p =>
    let s := p.messageKeys.foldl removeMessage s
    let s : TimelineStage α :=
      (p.noteKeys.foldl removeNote s).eraseParts (ParticipantItem.partIds id)
    s.set { s.picture with participants := s.picture.participants.erase id }

/-- Puts a participant, the one with that index, at its recorded place or else
    at the default one, and draws it. -/
def placeParticipant (s : TimelineStage α) (spacing : α) (spec : Participant) (index : Nat) :
    Outcome (TimelineStage α) :=
  let s : TimelineStage α := { s with store := s.store.load }
  let saved := s.store.node? spec.id
  let x := (saved.map Rect.x).getD (Layout.participantLeft index spacing)
  let width := match saved with
    | some r => if 0 < r.width then r.width else Layout.participantWidth
    | none => Layout.participantWidth
  let p := match s.picture.participants[spec.id]? with
    | some p => { p with label := spec.label, x, width }
    | none => { label := spec.label, x, width }
  (s.set (s.picture.setParticipant spec.id p)).drawParticipant spec.id

/-- Puts a message, the one with that index, and draws it. One with that key
    keeps its ends. -/
def placeMessage (s : TimelineStage α) (spec : Message) (index : Nat) :
    Outcome (TimelineStage α) :=
  let key := spec.key index
  let y := Layout.messageY index
  let t := match s.picture.messages[key]? with
    | some m =>
      let message := { m.message with text := spec.text, style := spec.style }
      { s.picture with messages := s.picture.messages.insert key { message, y } }
    | none =>
      let t := s.picture.linkMessage key spec.source
      let t := if spec.target = spec.source then t else t.linkMessage key spec.target
      { t with messages := t.messages.insert key { message := spec, y } }
  (s.set t).drawMessage key

/-- Puts a note, the one with that index, below all messages and draws it. One
    with that key keeps its participants. -/
def placeNote (s : TimelineStage α) (messages : Nat) (spec : Note) (present : List String)
    (index : Nat) : Outcome (TimelineStage α) :=
  let key := spec.key index
  let y := Layout.noteY messages index
  let (t, ids) := match s.picture.notes[key]? with
    | some n => (s.picture, n.note.participants)
    | none => (present.foldl (fun t id => t.linkNote key id) s.picture, present)
  let note : Note := { participants := ids, text := spec.text }
  (s.set { t with notes := t.notes.insert key { note, y, rect := Rect.zero } }).drawNote key

/-- Removes the participants that the diagram does not have. -/
def removeStaleParticipants (s : TimelineStage α) (ids : List String) : TimelineStage α :=
  (s.picture.participants.keys.filter fun id => !ids.contains id).foldl removeParticipant s

/-- Puts the participants of the diagram, in its order. -/
def placeParticipants (s : TimelineStage α) (d : Sequence) : TimelineStage α :=
  d.participants.zipIdx.foldl
    (fun s (spec, index) =>
      (s.placeParticipant d.config.participantSpacing spec index).state) s

/-- The messages of the diagram between participants that are there, with their
    indices. -/
def presentMessages (t : Timeline α) (d : Sequence) : List (Message × Nat) :=
  d.messages.zipIdx.filter fun (m, _) =>
    t.participants.contains m.source && t.participants.contains m.target

/-- The notes of the diagram over some participant that is there, with those
    that are and with their indices. -/
def presentNotes (t : Timeline α) (d : Sequence) : List (Note × List String × Nat) :=
  (d.notes.zipIdx.map fun (n, index) =>
    (n, n.participants.filter t.participants.contains, index)).filter fun (_, present, _) =>
      !present.isEmpty

/-- Puts the messages of the diagram and removes those that it does not have. -/
def placeMessages (s : TimelineStage α) (d : Sequence) : TimelineStage α :=
  let present := presentMessages s.picture d
  let s := present.foldl (fun s (m, index) => (s.placeMessage m index).state) s
  (s.picture.messages.keys.filter fun key =>
    !present.any fun (m, index) => m.key index == key).foldl removeMessage s

/-- Puts the notes of the diagram and removes those that it does not have. -/
def placeNotes (s : TimelineStage α) (d : Sequence) : TimelineStage α :=
  let present := presentNotes s.picture d
  let s := present.foldl
    (fun s (n, ids, index) => (s.placeNote d.messages.length n ids index).state) s
  (s.picture.notes.keys.filter fun key =>
    !present.any fun (n, _, index) => n.key index == key).foldl removeNote s

/-- Records the place of a participant, unless it is recorded already. -/
def persistParticipant (s : TimelineStage α) (id : String) : TimelineStage α :=
  match s.picture.participants[id]? with
  | none => s
  | some p =>
    if (s.store.node? id).any fun r => r.same p.header then
      { s with store := s.store.load }
    else
      { s with store := s.store.setNode id p.header }

/-- Brings the timeline in line with a sequence diagram and records the places
    of all participants. A refusal stops the drawing of the participant, message
    or note at hand and nothing else; only a refusal of the title stops the
    rendering, before any place is recorded. -/
def render (s : TimelineStage α) (d : Sequence) : Outcome (TimelineStage α) :=
  let ids := d.participants.map Participant.id
  let s := (((s.removeStaleParticipants ids).placeParticipants d).placeMessages d).placeNotes d
  (s.set { s.picture with title := d.title }).drawTitle.andThen fun s =>
    let s := s.picture.participants.keys.foldl persistParticipant s
    .done (s.set { s.picture with order := ids })

end TimelineStage

end LiveDiagram
