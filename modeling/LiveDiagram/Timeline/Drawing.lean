import LiveDiagram.Surface.Label
import LiveDiagram.Surface.Part
import LiveDiagram.Timeline.Basic

namespace LiveDiagram

open Scalar

variable {α : Type} [Scalar α]

/-- The colour of the names of participants and of the title. -/
def headingColor : String := "#1d3447"

/-- The colour of participants and their lifelines. -/
def participantColor : String := "#1d5fa2"

/-- The colour of the lines of messages. -/
def messageColor : String := "#2d4250"

namespace ParticipantItem

/-- The box with the name of a participant. -/
def header (p : ParticipantItem α) : Rect α :=
  ⟨p.x, 0, p.width, Layout.participantHeight⟩

/-- The marks that draw a participant. -/
def marks (id : String) (p : ParticipantItem α) : List (Mark α) :=
  let x := p.x + half p.width
  [.put (Part.participant id).id
      { shape := .rect p.header
        paint := { fill := "#f0f6ff", stroke := participantColor, strokeWidth := 2 }
        z := 5 },
    .put (Part.participantLabel id).id (.label p.header p.label headingColor "" 6),
    .put (Part.lifeline id).id
      (.stroke ⟨x, Layout.participantHeight⟩ ⟨x, Layout.lifelineEnd⟩ participantColor true 3)]

/-- The ids of all parts of a participant. -/
def partIds (id : String) : List String :=
  [(Part.participant id).id, (Part.participantLabel id).id, (Part.lifeline id).id]

end ParticipantItem

namespace MessageItem

/-- The length and half the width of the arrow head of a message. -/
def arrowLength : α := 12

def arrowHalfWidth : α := 6

/-- How far above its line the label of a message stands. -/
def labelGap : α := 4

/-- A stroke of an arrow head with its tip on the line of the message: which way
    the line runs, and on which side of the line the stroke ends. -/
def headStroke (m : MessageItem α) (tip direction side : α) : Primitive α :=
  .stroke ⟨tip, m.y⟩ ⟨tip - direction * arrowLength, m.y + side * arrowHalfWidth⟩ messageColor false 6

/-- The label of a message, above the middle of its line. -/
def labelPrimitive (measure : Measure α) (m : MessageItem α) (x1 x2 : α) : Primitive α :=
  let size := labelSize (measure m.message.text)
  .label ⟨half (x1 + x2) - half size.width, m.y - size.height - labelGap, size.width, size.height⟩
    m.message.text "#2c3e50" labelBackground 7

/-- The marks that draw a message between two lifelines. An asynchronous message
    has two heads, the second one half a head behind the first. -/
def marks (measure : Measure α) (key : String) (m : MessageItem α) (x1 x2 : α) : List (Mark α) :=
  let direction : α := if x1 ≤ x2 then 1 else -1
  let head (stroke : Nat) (tip side : α) : Mark α :=
    .put (Part.messageHead key stroke).id (m.headStroke tip direction side)
  let second := x2 - direction * half arrowLength
  [.put (Part.messageLine key).id
      (.stroke ⟨x1, m.y⟩ ⟨x2, m.y⟩ messageColor (m.message.style == .dashed) 6),
    head 0 x2 (-1), head 1 x2 1]
    ++ (match m.message.style with
      | .async => [head 2 second (-1), head 3 second 1]
      | _ => [.erase (Part.messageHead key 2).id, .erase (Part.messageHead key 3).id])
    ++ [.put (Part.messageLabel key).id (m.labelPrimitive measure x1 x2)]

/-- The ids of all parts of a message. -/
def partIds (key : String) : List String :=
  [(Part.messageLine key).id, (Part.messageHead key 0).id, (Part.messageHead key 1).id,
    (Part.messageHead key 2).id, (Part.messageHead key 3).id, (Part.messageLabel key).id]

end MessageItem

namespace NoteItem

/-- The marks that draw a note. -/
def marks (key : String) (n : NoteItem α) : List (Mark α) :=
  [.put (Part.note key).id
      { shape := .roundedRect n.rect cornerRadius
        paint := { fill := "#fff8d2", stroke := "#c49b00", strokeWidth := 2 }
        z := 4 },
    .put (Part.noteLabel key).id (.label n.rect n.note.text "#4a3b00" "" 5)]

/-- The ids of all parts of a note. -/
def partIds (key : String) : List String :=
  [(Part.note key).id, (Part.noteLabel key).id]

end NoteItem

namespace Timeline

/-- The marks that draw the title in the middle above all participants, or erase
    it. -/
def titleMarks (measure : Measure α) (t : Timeline α) : List (Mark α) :=
  if t.title.isEmpty then
    [.erase Part.title.id]
  else
    let (least, greatest) := t.extent
    let size := measure t.title
    let box : Rect α :=
      ⟨half (least + greatest) - half size.width, Layout.titleTop, size.width, size.height⟩
    [.put Part.title.id (.label box t.title headingColor "" 20)]

end Timeline

namespace TimelineStage

/-- Draws a participant of the timeline. -/
def drawParticipant (s : TimelineStage α) (id : String) : Outcome (TimelineStage α) :=
  match s.picture.participants[id]? with
  | some p => s.draw (p.marks id)
  | none => .done s

/-- Draws a message of the timeline between the lifelines of its ends. -/
def drawMessage (s : TimelineStage α) (key : String) : Outcome (TimelineStage α) :=
  match s.picture.messages[key]? with
  | some m =>
    s.draw (m.marks s.measure key (s.picture.centerOf m.message.source)
      (s.picture.centerOf m.message.target))
  | none => .done s

/-- Fits the box of a note to its participants and draws it. -/
def drawNote (s : TimelineStage α) (key : String) : Outcome (TimelineStage α) :=
  match s.picture.notes[key]? with
  | some n =>
    let rect := s.picture.noteBox n.note.participants n.y (s.measure n.note.text).height
    let n := { n with rect }
    (s.set { s.picture with notes := s.picture.notes.insert key n }).draw (n.marks key)
  | none => .done s

/-- Draws the title or erases it. -/
def drawTitle (s : TimelineStage α) : Outcome (TimelineStage α) :=
  s.draw (s.picture.titleMarks s.measure)

end TimelineStage

end LiveDiagram
