import LiveDiagram.Sequence.Statement

namespace LiveDiagram

namespace Sequence

/-- Declares a participant: a new one comes last, a known one changes its
    label. -/
def declare (participants : List Participant) (id label : String) : List Participant :=
  if participants.any fun p => p.id == id then
    participants.map fun p => if p.id = id then { p with label } else p
  else
    participants ++ [{ id := id, label := label }]

/-- Declares a participant under its own id, unless it is known. -/
def mention (participants : List Participant) (id : String) : List Participant :=
  if participants.any fun p => p.id == id then participants else participants ++ [{ id := id, label := id }]

/-- The diagram with one more statement. -/
def state (d : Sequence) : Statement → Sequence
  | .title text => { d with title := text }
  | .participant id label => { d with participants := declare d.participants id label }
  | .note ids text =>
    { d with
      participants := ids.foldl mention d.participants
      notes := d.notes ++ [{ participants := ids, text }] }
  | .message m =>
    { d with
      participants := mention (mention d.participants m.source) m.target
      messages := d.messages ++ [m] }

/-- The sequence diagram that the lines state. Participants stand in the order
    in which statements declare or mention them; one that is only mentioned has
    its id as its label, and of several declarations the last one gives the
    label. -/
def ofLines (lines : List (List Char)) (config : Config) : Sequence :=
  (lines.filterMap Statement.ofLine?).foldl state { config }

end Sequence

end LiveDiagram
