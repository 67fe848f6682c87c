import LiveDiagram.Proofs.Chart.Render

namespace LiveDiagram

variable {α : Type}

/-- No id of a node or of an end of an edge holds a bar. Then different edges
    have different keys. -/
structure Flowchart.BarFree (d : Flowchart) : Prop where
  nodes : ∀ id ∈ d.nodeIds, '|' ∉ id.toList
  edges : ∀ e ∈ d.edges, e.BarFree

namespace ChartStage

variable {s : ChartStage α} {d : Flowchart}

end ChartStage

variable [Scalar α]

namespace ChartStage

variable {s : ChartStage α} {d : Flowchart}

end ChartStage

end LiveDiagram
