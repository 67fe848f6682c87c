import LiveDiagram.Flowchart.Basic

namespace LiveDiagram

/-- How the line of a message is drawn. -/
inductive MessageStyle where
  | solid
  | dashed
  /-- Dashed too, with its own name: the sender does not wait. -/
  | async
  deriving DecidableEq, Repr, Inhabited

/-- The name of a message style. -/
def MessageStyle.name : MessageStyle → String
  | solid => "solid"
  | dashed => "dashed"
  | async => "async"

/-- A participant of a sequence diagram. -/
structure Participant where
  id : String
  label : String
  deriving DecidableEq, Repr, Inhabited

/-- A message; its ends are participant ids. -/
structure Message where
  source : String
  target : String
  text : String
  style : MessageStyle := .solid
  deriving DecidableEq, Repr, Inhabited

/-- A note over some participants. -/
structure Note where
  participants : List String
  text : String
  deriving DecidableEq, Repr, Inhabited

/-- A sequence diagram as its text states it. The participants stand in the
    order of their first appearance, which is the order from left to right, and
    the messages from top to bottom. -/
structure Sequence where
  title : String := ""
  participants : List Participant := []
  messages : List Message := []
  notes : List Note := []
  config : Config := ∅

end LiveDiagram
