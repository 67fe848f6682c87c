import LiveDiagram.Layout.Placement
import LiveDiagram.Sequence.Basic
import LiveDiagram.Stage.Basic

namespace LiveDiagram

open Scalar

/-- A participant on a timeline. It lists the messages and notes that depend on
    its place. -/
structure ParticipantItem (α : Type) where
  label : String
  x : α
  width : α
  messageKeys : List String := []
  noteKeys : List String := []
  deriving DecidableEq, Repr, Inhabited

/-- A message on a timeline, at its height. -/
structure MessageItem (α : Type) where
  message : Message
  y : α
  deriving DecidableEq, Repr, Inhabited

/-- A note on a timeline, over those of its participants that are there. -/
structure NoteItem (α : Type) where
  note : Note
  y : α
  rect : Rect α
  deriving DecidableEq, Repr, Inhabited

/-- The picture of a sequence diagram: participants by id, messages and notes by
    key. A key is made of the index of the message or note and all that it
    states, so that a changed one is a new one. -/
structure Timeline (α : Type) where
  participants : Std.ExtTreeMap String (ParticipantItem α) := ∅
  messages : Std.ExtTreeMap String (MessageItem α) := ∅
  notes : Std.ExtTreeMap String (NoteItem α) := ∅
  title : String := ""
  /-- The ids of the participants in the order of the diagram that was rendered
      last. -/
  order : List String := []

/-- The key of the message with that index. -/
def Message.key (index : Nat) (m : Message) : String :=
  toString index ++ "|" ++ m.source ++ "|" ++ m.target ++ "|" ++ m.text ++ "|" ++ m.style.name

/-- The key of the note with that index. The order in which it names its
    participants does not count. -/
def Note.key (index : Nat) (n : Note) : String :=
  toString index ++ "|" ++ "&".intercalate (n.participants.mergeSort fun a b => a ≤ b) ++ "|" ++ n.text

namespace Timeline

variable {α : Type}

/-- A timeline without participants. -/
def empty : Timeline α := {}

/-- The timeline with a participant replaced or added. -/
def setParticipant (t : Timeline α) (id : String) (p : ParticipantItem α) : Timeline α :=
  { t with participants := t.participants.insert id p }

/-- Changes a participant that is there. -/
def modifyParticipant (t : Timeline α) (id : String) (f : ParticipantItem α → ParticipantItem α) :
    Timeline α :=
  { t with participants := t.participants.modify id f }

/-- Lists a message at a participant. -/
def linkMessage (t : Timeline α) (key id : String) : Timeline α :=
  t.modifyParticipant id fun p => { p with messageKeys := p.messageKeys ++ [key] }

/-- Takes a message off the list of a participant. -/
def unlinkMessage (t : Timeline α) (key id : String) : Timeline α :=
  t.modifyParticipant id fun p => { p with messageKeys := p.messageKeys.filter fun k => k != key }

/-- Lists a note at a participant. -/
def linkNote (t : Timeline α) (key id : String) : Timeline α :=
  t.modifyParticipant id fun p => { p with noteKeys := p.noteKeys ++ [key] }

/-- Takes a note off the list of a participant. -/
def unlinkNote (t : Timeline α) (key id : String) : Timeline α :=
  t.modifyParticipant id fun p => { p with noteKeys := p.noteKeys.filter fun k => k != key }

variable [Scalar α]

/-- The x coordinate of the lifeline of a participant. -/
def ParticipantItem.center (p : ParticipantItem α) : α :=
  p.x + half p.width

/-- The x coordinate of the lifeline of a participant, zero if it is not
    there. -/
def centerOf (t : Timeline α) (id : String) : α :=
  (t.participants[id]?.map ParticipantItem.center).getD 0

/-- The least and the greatest of some values, both zero if there are none. -/
def span : List α → α × α
  | [] => (0, 0)
  | c :: cs =>
    cs.foldl (fun (least, greatest) c =>
      (if c < least then c else least, if greatest < c then c else greatest)) (c, c)

/-- Between which lifelines all participants lie. -/
def extent (t : Timeline α) : α × α :=
  span (t.participants.toList.map fun p => ParticipantItem.center p.2)

/-- Between which lifelines those of the given participants lie that are
    there. -/
def extentOf (t : Timeline α) (ids : List String) : α × α :=
  span (ids.filterMap fun id => t.participants[id]?.map ParticipantItem.center)

/-- The box of a note at a height, around the text that was measured. -/
def noteBox (t : Timeline α) (ids : List String) (y textHeight : α) : Rect α :=
  let (least, greatest) := t.extentOf ids
  Layout.noteRect least greatest y (textHeight + Layout.noteTextPadding)

end Timeline

/-- A stage with a timeline on it. -/
abbrev TimelineStage (α : Type) := Stage (Timeline α) α

/-- The stage with another timeline. -/
def TimelineStage.set {α : Type} (s : TimelineStage α) (t : Timeline α) : TimelineStage α :=
  { s with picture := t }

end LiveDiagram
