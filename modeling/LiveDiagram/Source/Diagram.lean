import LiveDiagram.Flowchart.Reader
import LiveDiagram.Sequence.Reader
import LiveDiagram.Source.FrontMatter

namespace LiveDiagram

open Text

/-- A diagram of either kind. -/
inductive Diagram where
  | flowchart (d : Flowchart)
  | sequence (d : Sequence)

namespace Diagram

/-- The diagram that the statements state, under these settings. The line that
    makes it a sequence diagram states nothing else. -/
def ofStatements (statements : List (List Char)) (config : Config) : Diagram :=
  if isSequence statements then
    .sequence (Sequence.ofLines statements.tail config)
  else
    .flowchart (Flowchart.ofLines statements config)

/-- The diagram of a text: what stands behind its block of settings states it,
    and the block gives the settings. Every text is the text of a diagram. Lines
    that state nothing are passed over, and the empty text is an empty
    flowchart. -/
def ofText [YamlReader] (text : String) : Diagram :=
  ofStatements (statements (bodyLines (lines text.toList))) (Config.ofLines (lines text.toList))

end Diagram

/-- Whether the settings pin nodes to their stored places. -/
def Config.isFixedLayout (config : Config) : Bool :=
  config["layout"]?.any fun value => lower (trim value.toList) == "fixed".toList

end LiveDiagram
