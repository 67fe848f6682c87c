import LiveDiagram.Plane.Handle

namespace LiveDiagram

/-- The points by which an edge is dragged. -/
inductive EdgePoint where
  | start
  | finish
  | control1
  | control2
  deriving DecidableEq, Repr, Inhabited

namespace EdgePoint

def all : List EdgePoint :=
  [start, finish, control1, control2]

def name : EdgePoint → String
  | start => "start"
  | finish => "end"
  | control1 => "control1"
  | control2 => "control2"

end EdgePoint

/-- A primitive of a diagram. Nodes and participants are given by id, edges,
    messages and notes by key. -/
inductive Part where
  | node (id : String)
  | nodeLabel (id : String)
  | nodeHandle (id : String) (h : Handle)
  | edgePath (key : String)
  | edgeEndArrow (key : String)
  | edgeStartArrow (key : String)
  | edgeLabel (key : String)
  | edgePoint (key : String) (p : EdgePoint)
  | participant (id : String)
  | participantLabel (id : String)
  | lifeline (id : String)
  | messageLine (key : String)
  /-- A stroke of an arrow head; the second head of an asynchronous message has
      strokes two and three. -/
  | messageHead (key : String) (stroke : Nat)
  | messageLabel (key : String)
  | note (key : String)
  | noteLabel (key : String)
  | title
  deriving DecidableEq, Repr

/-- The id under which a part is drawn: it names the kind of its owner, the
    owner and, unless it is the body of the owner, the part. -/
def Part.id : Part → String
  | node id => "node:" ++ id
  | nodeLabel id => "node:" ++ id ++ ":label"
  | nodeHandle id h => "node:" ++ id ++ ":handle:" ++ h.name
  | edgePath key => "edge:" ++ key ++ ":path"
  | edgeEndArrow key => "edge:" ++ key ++ ":arrow_end"
  | edgeStartArrow key => "edge:" ++ key ++ ":arrow_start"
  | edgeLabel key => "edge:" ++ key ++ ":label"
  | edgePoint key p => "edge:" ++ key ++ ":cp:" ++ p.name
  | participant id => "participant:" ++ id
  | participantLabel id => "participant:" ++ id ++ ":label"
  | lifeline id => "participant:" ++ id ++ ":lifeline"
  | messageLine key => "message:" ++ key ++ ":line"
  | messageHead key stroke => "message:" ++ key ++ ":head" ++ toString stroke
  | messageLabel key => "message:" ++ key ++ ":label"
  | note key => "note:" ++ key
  | noteLabel key => "note:" ++ key ++ ":label"
  | title => "title"

end LiveDiagram
