import LiveDiagram.Number.Double
import LiveDiagram.Proofs.Chart.Idempotence
import LiveDiagram.Proofs.Chart.Isolation
import LiveDiagram.Proofs.Chart.Reconcile
import LiveDiagram.Proofs.Session.Calls

namespace LiveDiagram.Session

variable {α : Type}

/-- The stage for a flowchart does not depend on what is refused. -/
theorem agreeBut_chartStage {torn : String → Prop} {s t : Session α} (h : Stage.AgreeBut torn s t) :
    Stage.AgreeBut torn s.chartStage t.chartStage := by
  unfold chartStage
  rw [h.picture]
  split
  · exact h.withPicture _
  · exact h.clearSurface.withPicture _

/-- A session is, apart from the nodes and edges of which a part is refused,
    what another one is. -/
structure Spared (refused : List String) (s t : Session α) : Prop where
  picture : s.picture = t.picture
  store : s.store = t.store
  node : ∀ id ∈ s.picture.chartOrEmpty.nodes, (∀ part ∈ NodeItem.partIds id, part ∉ refused) →
    ∀ name ∈ NodeItem.partIds id, s.surface.find? name = t.surface.find? name
  edge : ∀ key ∈ s.picture.chartOrEmpty.edges, (∀ part ∈ EdgeItem.partIds key, part ∉ refused) →
    ∀ name ∈ EdgeItem.partIds key, s.surface.find? name = t.surface.find? name

variable [Scalar α]

/-- An edge between two nodes. -/
def oneEdge : Flowchart where
  nodes := [⟨"a", "A", none⟩, ⟨"b", "B", none⟩]
  edges := [{ source := "a", target := "b" }]

/-- A session that shows a flowchart already. -/
def oneEdgeShown : Session Float :=
  (start (fun _ => ⟨0, 0⟩) default).run [.render (.flowchart oneEdge)]

/-- On a surface that refuses nothing, showing a flowchart twice leaves the
    chart with its selection, the store with its backend, and the primitives as
    showing it once leaves them, whatever the session was like before. Ids and
    edges may be anything: nodes may be declared and edges stated more than
    once, and edges may lack their nodes. -/
theorem renderFlowchart_renderFlowchart (s : Session α) (haccepts : s.surface.Accepts)
    (d : Flowchart) :
    ((s.renderFlowchart d).renderFlowchart d).picture = (s.renderFlowchart d).picture ∧
      ((s.renderFlowchart d).renderFlowchart d).store = (s.renderFlowchart d).store ∧
      ((s.renderFlowchart d).renderFlowchart d).surface.primitives =
        (s.renderFlowchart d).surface.primitives := by
  obtain ⟨hpicture, hstore, hprimitives⟩ :=
    s.chartStage.render_render d (accepts_chartStage haccepts)
  exact ⟨congrArg Picture.chart hpicture, hstore, hprimitives⟩

/-- Two nodes whose parts share an id, an edge from one to itself, and an edge
    to nowhere. -/
def tangle : Flowchart where
  nodes := [⟨"a", "A", none⟩, ⟨"a:label", "B", none⟩, ⟨"a", "C", none⟩]
  edges := [{ source := "a", target := "a" }, { source := "a", target := "a" },
    { source := "a", target := "b" }]

/-- Two nodes with a part under one id hide each other in the same way each
    time. -/
theorem renderFlowchart_renderFlowchart_tangle :
    (((start (fun _ => ⟨0, 0⟩) default : Session Float).renderFlowchart tangle).renderFlowchart
      tangle).surface.primitives =
        ((start (fun _ => ⟨0, 0⟩) default : Session Float).renderFlowchart tangle).surface.primitives :=
  (renderFlowchart_renderFlowchart (start (fun _ => ⟨0, 0⟩) default : Session Float) rfl tangle).2.2

/-- Whatever a session shows and whatever its surface refuses from now on,
    nothing stops the showing of a flowchart. The chart, its routes and its
    selection, and the store become what they become when nothing is refused,
    and so does every node and edge of which no part is refused. With colons in
    its ids, a node could share a part with one that is left half drawn. -/
theorem spared_renderFlowchart (s : Session α) (refused : List String) {d : Flowchart}
    (hd : ∀ id ∈ d.nodeIds, ColonFree id) :
    ((s.call (.refuse refused)).render (.flowchart d)).refusal = none ∧
      Spared refused ((s.call (.refuse refused)).render (.flowchart d)).state
        ((s.call (.refuse [])).render (.flowchart d)).state := by
  have hstart : Stage.AgreeBut (d.Torn refused) (s.call (.refuse refused)) (s.call (.refuse [])) := by
    refine ⟨⟨_, rfl⟩, fun name hname => ?_, fun _ _ => rfl⟩
    have hnot : name ∉ refused := fun hmem => hname (.inl hmem)
    simp [call, hnot]
  have hrendered := ChartStage.agreeBut_render (agreeBut_chartStage hstart)
    (fun _ hid => Flowchart.tornTogether_node hd hid) Flowchart.tornTogether_edge
  have hsurface := hrendered.surface.primitives
  refine ⟨rfl, ?_, ?_, ?_, ?_⟩
  · exact congrArg Picture.chart hrendered.picture.symm
  · exact hrendered.store.symm
  · intro id hid hwhole name hname
    have hnode : id ∈ d.nodeIds := ChartStage.mem_render_nodes.mp hid
    exact (hsurface name (Flowchart.not_torn_of_node hd hnode hwhole hname)).symm
  · intro key _ hwhole name hname
    exact (hsurface name (Flowchart.not_torn_of_edge hwhole hname)).symm

/-- Two nodes with an edge between them. -/
def pair : Flowchart where
  nodes := [⟨"a", "A", none⟩, ⟨"b", "B", none⟩]
  edges := [{ source := "a", target := "b" }]

/-- A node is drawn although the other one and the edge between them are not. -/
theorem spared_renderFlowchart_pair :
    (((start (fun _ => ⟨0, 0⟩) default : Session Float).call
        (.refuse ["node:a:label", "edge:a|b||arrow:path"])).render (.flowchart pair)).state.surface.find?
          (Part.nodeLabel "b").id =
      (((start (fun _ => ⟨0, 0⟩) default : Session Float).call (.refuse [])).render
        (.flowchart pair)).state.surface.find? (Part.nodeLabel "b").id := by
  have hspared := (spared_renderFlowchart (start (fun _ => ⟨0, 0⟩) default : Session Float)
    ["node:a:label", "edge:a|b||arrow:path"] (d := pair) (by decide)).2
  exact hspared.node "b" (ChartStage.mem_render_nodes.mpr (by decide)) (by decide) _ (by decide)

end LiveDiagram.Session
