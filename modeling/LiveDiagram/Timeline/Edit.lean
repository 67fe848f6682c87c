import LiveDiagram.Timeline.Drawing

namespace LiveDiagram

namespace TimelineStage

variable {α : Type} [Scalar α]

/-- Draws everything that depends on the place of a participant. -/
def updateDependents (s : TimelineStage α) (id : String) : Outcome (TimelineStage α) :=
  match s.picture.participants[id]? with
  | none => .done s
  | some p =>
    ((Outcome.forEach p.messageKeys (fun key s => s.drawMessage key) s).andThen
      (Outcome.forEach p.noteKeys fun key s => s.drawNote key)).andThen drawTitle

/-- Moves the left side of a participant, and takes along the messages, the
    notes and the title that depend on its place. Nothing is recorded. -/
def moveParticipant (s : TimelineStage α) (id : String) (x : α) : Outcome (TimelineStage α) :=
  match s.picture.participants[id]? with
  | none => .done s
  | some p =>
    ((s.set (s.picture.setParticipant id { p with x })).drawParticipant id).andThen fun s =>
      s.updateDependents id

/-- Records the place of a participant. -/
def commitParticipant (s : TimelineStage α) (id : String) : TimelineStage α :=
  match s.picture.participants[id]? with
  | none => s
  | some p => s.commit id p.header

end TimelineStage

end LiveDiagram
