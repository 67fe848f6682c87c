import LiveDiagram.Flowchart.Basic
import LiveDiagram.Flowchart.Reference
import LiveDiagram.Text.Lines

namespace LiveDiagram

open Text

namespace Flowchart

/-- What one line of a flowchart states: it declares a node or states edges. -/
inductive Statement where
  /-- Arrows from one node to several. -/
  | fan (source : NodeRef) (targets : List NodeRef)
  /-- One edge between two nodes. -/
  | link (source : NodeRef) (label : List Char) (kind : EdgeKind) (target : NodeRef)
  /-- A node on its own. -/
  | node (id label : List Char)
  deriving DecidableEq, Repr

namespace Statement

/-- The text after an arrow with two heads and the white space around it. -/
def afterTwoHeaded? (s : List Char) : Option (List Char) := do
  let s ← after? ['<', '-', '-', '>'] (skipSpaces s)
  pure (skipSpaces s)

/-- The text after an arrow and the white space around it. -/
def afterArrow? (s : List Char) : Option (List Char) := do
  let s ← after? ['-', '-', '>'] (skipSpaces s)
  pure (skipSpaces s)

/-- The label within an arrow, of all the text between its two strokes: without
    the white space around it, or the last character if there is nothing but
    white space. -/
def strokeLabel (between : List Char) : List Char :=
  match strip isSpace between with
  | [] => between.getLast?.toList
  | label => label

/-- An arrow with the label between its strokes, `-- label -->`. The label is
    not empty and has no hyphen. -/
def strokeArrow? (s : List Char) : Option (List Char × List Char) := do
  let s ← after? ['-', '-'] (skipSpaces s)
  let between := s.takeWhile (· != '-')
  let rest ← after? ['-', '-', '>'] (s.dropWhile (· != '-'))
  if between.isEmpty then none
  pure (trim (strokeLabel between), skipSpaces rest)

/-- An arrow with the label between bars, `-->|label|`. -/
def barArrow? (s : List Char) : Option (List Char × List Char) := do
  let s ← afterArrow? s
  let s ← after? ['|'] s
  let rest ← after? ['|'] (s.dropWhile (· != '|'))
  pure (trim (s.takeWhile (· != '|')), skipSpaces rest)

/-- An edge at the head of the text: a source, an arrow and a target, where the
    source is read in the first way that lets the others be read. -/
def linkAt? (kind : EdgeKind) (arrow : List Char → Option (List Char × List Char))
    (s : List Char) : Option Statement :=
  (NodeRef.readings s).findSome? fun (source, rest) => do
    let (label, rest) ← arrow rest
    let (target, _) ← NodeRef.read? rest
    pure (.link source label kind target)

/-- Whether an ampersand stands inside the text, which has no line break. -/
def isFanTargets (s : List Char) : Bool :=
  s.tail.dropLast.any (· == '&') && !s.any isLineBreak

/-- Arrows to several nodes, `a --> b & c`, which make up the whole statement. A
    part between ampersands that is no reference is passed over. -/
def fan? (s : List Char) : Option Statement :=
  (NodeRef.readings s).findSome? fun (source, rest) => do
    let rest ← after? ['-', '-', '>'] (skipSpaces rest)
    let targets ← afterSpaces 0 isFanTargets rest
    pure (.fan source (((splitOn '&' targets).map trim).filterMap NodeRef.whole?))

/-- A node with a quoted label that is not empty. -/
def quotedNodeAt? (s : List Char) : Option Statement := do
  let (id, rest) ← word? s
  let (label, _) ← NodeRef.quotedLabel? rest
  if label.isEmpty then none
  pure (.node id label)

/-- A node with a label in brackets that is not empty, though it may be once its
    quotes are gone. -/
def bracketNodeAt? (s : List Char) : Option Statement := do
  let (id, rest) ← word? s
  let (label, _) ← NodeRef.bracketLabel? rest
  if label.isEmpty then none
  pure (.node id (NodeRef.unquote label))

/-- What a statement says. The forms are tried in a fixed order, and the first
    that can be read anywhere in the statement is taken: what stands before and
    after it does not count. -/
def read? (s : List Char) : Option Statement :=
  fan? s
    <|> search (linkAt? .bidirectional fun s => (afterTwoHeaded? s).map ([], ·)) s
    <|> search (linkAt? .arrow strokeArrow?) s
    <|> search (linkAt? .arrow barArrow?) s
    <|> search (linkAt? .arrow fun s => (afterArrow? s).map ([], ·)) s
    <|> search quotedNodeAt? s
    <|> search bracketNodeAt? s

/-- The nodes that a statement declares, with their labels, in order. -/
def declarations : Statement → List (String × String)
  | fan source targets => (source :: targets).filterMap NodeRef.declared?
  | link source _ _ target => [source, target].filterMap NodeRef.declared?
  | node id label => [(String.ofList id, String.ofList label)]

/-- The edges that a statement states, in order. -/
def edges : Statement → List Edge
  | fan source targets =>
    targets.map fun target =>
      { source := String.ofList source.id, target := String.ofList target.id }
  | link source label kind target =>
    [{ source := String.ofList source.id, target := String.ofList target.id
       label := String.ofList label, kind }]
  | node _ _ => []

end Statement

end Flowchart

end LiveDiagram
