import LiveDiagram.Flowchart.Line

namespace LiveDiagram

namespace Flowchart

/-- Declares a node: a new one comes last, a known one changes its label. -/
def declare (nodes : List Node) (id label : String) : List Node :=
  if nodes.any fun n => n.id == id then
    nodes.map fun n => if n.id = id then { n with label } else n
  else
    nodes ++ [{ id := id, label := label }]

/-- Declares a node under its own id, unless it is known. -/
def mention (nodes : List Node) (id : String) : List Node :=
  if nodes.any fun n => n.id == id then nodes else nodes ++ [{ id := id, label := id }]

/-- Makes the node join the class; a node is in one class at most. Naming a node
    that does not exist has no effect. -/
def join (nodes : List Node) (id className : String) : List Node :=
  nodes.map fun n => if n.id = id then { n with className := some className } else n

/-- The last direction that the definitions state. -/
def direction? (definitions : List Definition) : Option Direction :=
  (definitions.filterMap fun | .direction d => some d | _ => none).getLast?

/-- The styles that the definitions give to classes. -/
def styles (definitions : List Definition) : Std.ExtTreeMap String Properties :=
  (definitions.filterMap fun | .style name properties => some (name, properties) | _ => none).foldl
    (fun styles (name, properties) => styles.insert name properties) ∅

/-- The nodes and the classes that they join, in order. -/
def joins (definitions : List Definition) : List (String × String) :=
  definitions.flatMap fun | .members joins => joins | _ => []

/-- The nodes of a flowchart, given what its lines declare, state and join. -/
def nodesOf (declarations : List (String × String)) (edges : List Edge)
    (joins : List (String × String)) : List Node :=
  let declared := declarations.foldl (fun nodes (id, label) => declare nodes id label) []
  let mentioned := (edges.flatMap fun e => [e.source, e.target]).foldl mention declared
  joins.foldl (fun nodes (id, className) => join nodes id className) mentioned

/-- The flowchart that the lines state: the last direction stated, the last
    style of each class, the nodes that statements declare in the order in which
    they are first declared, then the ends of edges that no statement declares,
    and the edges in order. -/
def ofLines (lines : List (List Char)) (config : Config) : Flowchart :=
  let definitions := lines.map Definition.ofLine
  let statements := lines.filterMap Statement.ofLine?
  let edges := statements.flatMap Statement.edges
  { direction := (direction? definitions).getD .topDown
    nodes := nodesOf (statements.flatMap Statement.declarations) edges (joins definitions)
    edges
    classes := styles definitions
    config }

end Flowchart

end LiveDiagram
