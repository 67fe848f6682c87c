import LiveDiagram.Document.Basic
import LiveDiagram.Session.Basic

namespace LiveDiagram

/-- What there is to say after a text was rendered. -/
inductive RenderReport where
  | flowchart (nodes edges : Nat)
  | sequence (participants messages : Nat)
  | refused (r : Refusal)
  deriving DecidableEq, Repr

namespace RenderReport

/-- Whether the text was rendered to the end. -/
def ok : RenderReport → Bool
  | refused _ => false
  | _ => true

def message : RenderReport → String
  | flowchart nodes edges =>
    "Flowchart: " ++ toString nodes ++ " nodes, " ++ toString edges ++ " edges"
  | sequence participants messages =>
    "Sequence: " ++ toString participants ++ " participants, " ++ toString messages ++ " messages"
  | refused r => "Error: " ++ r.message

/-- The report on a diagram that was rendered to the end. -/
def ofDiagram : Diagram → RenderReport
  | .flowchart d => flowchart d.nodes.length d.edges.length
  | .sequence d => sequence d.participants.length d.messages.length

end RenderReport

namespace Session

variable {α : Type} [Scalar α]

/-- Shows the diagram of a text, and says how that went. -/
def renderText [YamlReader] (s : Session α) (text : String) : Session α × RenderReport :=
  let d := Diagram.ofText text
  let o := s.render d
  (o.state, match o.refusal with
    | none => .ofDiagram d
    | some r => .refused r)

/-- Forgets all positions and shows the text without its settings, which it
    returns. -/
def resetPositions [YamlReader] (s : Session α) (text : String) : Session α × String :=
  let s : Session α := { s with store := s.store.clear }
  let text := String.ofList (removeFrontMatter text.toList)
  ((s.clear.renderText text).1, text)

/-- Takes over the positions and the settings of a document, and shows nothing
    until its text is rendered, which it returns with the layout pinned. -/
def openDocument (s : Session α) (d : Document α) : Session α × Document α :=
  let s : Session α := { s with store := s.store.replace d.positions }
  ((s.updateSettings d.settings).clear,
    { d with text := String.ofList (pinLayout d.text.toList) })

/-- Opens the document in a file, if there is one. -/
def openFile (s : Session α) (f : FileContent α) : Session α × Option (Document α) :=
  match f.value?.bind Document.ofJson? with
  | some d =>
    let (s, d) := s.openDocument d
    (s, some d)
  | none => (s, none)

/-- The session as a document with that text. -/
def document (s : Session α) (text : String) : Document α where
  text
  positions := s.store.positions
  settings := s.settings

/-- Saves the session as a document in a file, and says whether that went
    well. -/
def saveFile (s : Session α) (text : String) (f : File α) : Session α × File α × Bool :=
  ({ s with store := s.store.load }, f.write (s.document text).toJson)

end Session

end LiveDiagram
