import Std.Data.ExtTreeMap

namespace LiveDiagram

/-- The direction in which a flowchart grows. `topDown` and `topBottom` differ
    in name only. -/
inductive Direction where
  | topDown
  | topBottom
  | bottomTop
  | rightLeft
  | leftRight
  deriving DecidableEq, Repr, Inhabited

namespace Direction

/-- The directions, in the order in which their names are tried. -/
def all : List Direction :=
  [topDown, topBottom, bottomTop, rightLeft, leftRight]

/-- The two letters that name a direction in the text of a flowchart. -/
def name : Direction → String
  | topDown => "TD"
  | topBottom => "TB"
  | bottomTop => "BT"
  | rightLeft => "RL"
  | leftRight => "LR"

/-- The direction of that name. -/
def ofName? (s : String) : Option Direction :=
  all.find? fun d => d.name == s

/-- Whether the flowchart grows along the x axis. -/
def isHorizontal : Direction → Bool
  | rightLeft | leftRight => true
  | _ => false

end Direction

/-- Which ends of an edge carry an arrow head. -/
inductive EdgeKind where
  | arrow
  | bidirectional
  deriving DecidableEq, Repr, Inhabited

/-- The name of a kind of edge, as edge keys end in it. -/
def EdgeKind.name : EdgeKind → String
  | arrow => "arrow"
  | bidirectional => "bidirectional"

/-- The kind of edge of that name; every other name means an arrow. -/
def EdgeKind.ofName (s : String) : EdgeKind :=
  if s = "bidirectional" then bidirectional else arrow

/-- A node of a flowchart. -/
structure Node where
  id : String
  label : String
  /-- The class whose style the node takes. -/
  className : Option String := none
  deriving DecidableEq, Repr, Inhabited

/-- An edge of a flowchart; its ends are node ids. -/
structure Edge where
  source : String
  target : String
  label : String := ""
  kind : EdgeKind := .arrow
  deriving DecidableEq, Repr, Inhabited

/-- The key of an edge: source, target, label and kind, separated by bars. Since
    neither an id nor the name of a kind holds a bar, the parts can be told
    apart whatever the label is. -/
def Edge.key (e : Edge) : String :=
  e.source ++ "|" ++ e.target ++ "|" ++ e.label ++ "|" ++ e.kind.name

/-- Named property texts, such as the colours of a class. -/
abbrev Properties := Std.ExtTreeMap String String

/-- Settings that stand in front of the text of a diagram. -/
abbrev Config := Std.ExtTreeMap String String

/-- A flowchart as its text states it: its nodes in order of declaration, its
    edges in order of statement, and the styles of its classes by name. Where
    things are placed on the plane is not part of it. -/
structure Flowchart where
  direction : Direction := .topDown
  nodes : List Node := []
  edges : List Edge := []
  classes : Std.ExtTreeMap String Properties := ∅
  config : Config := ∅

/-- The first node with that id. -/
def Flowchart.findNode? (d : Flowchart) (id : String) : Option Node :=
  d.nodes.find? fun n => n.id == id

end LiveDiagram
