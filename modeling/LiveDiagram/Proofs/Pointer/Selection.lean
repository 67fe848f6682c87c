import LiveDiagram.Proofs.Chart.Selection
import LiveDiagram.Proofs.Flowchart.Ids
import LiveDiagram.Proofs.Pointer.Events
import LiveDiagram.Proofs.Session.Current

namespace LiveDiagram

variable {α : Type} [Scalar α]

/-- The selection of a chart, as it is kept and as the surface shows it. -/
structure Chart.SelectionShown (c : Chart α) (surface : Surface α) : Prop where
  selectedEdge_mem : ∀ key, c.selectedEdge = some key → key ∈ c.edges
  selected_iff : ∀ (key : String) (e : EdgeItem α), c.edges[key]? = some e →
    (e.selected = true ↔ c.selectedEdge = some key)
  /-- The four points of an edge are seen just when it is selected. -/
  points : ∀ (key : String) (e : EdgeItem α), c.edges[key]? = some e → ∀ p : EdgePoint,
    ∃ q, surface.primitives[(Part.edgePoint key p).id]? = some q ∧ q.visible = e.selected
  /-- The eight handles of a node are seen just when it is selected. -/
  handles : ∀ (id : String) (n : NodeItem α), c.nodes[id]? = some n → ∀ h : Handle,
    ∃ q, surface.primitives[(Part.nodeHandle id h).id]? = some q ∧ q.visible = n.selected

namespace ChartStage

/-- On a surface in sync with its chart, the marks of nodes and edges are seen
    as they are. -/
theorem InSync.selectionShown {s : ChartStage α} (hs : s.InSync) (hcoherent : s.picture.Coherent) :
    s.picture.SelectionShown s.surface where
  selectedEdge_mem key hkey := by
    obtain ⟨e, he, -⟩ := Option.map_eq_some_iff.mp ((hcoherent key).mpr hkey)
    exact Std.ExtTreeMap.mem_iff_isSome_getElem?.mpr (Option.isSome_of_eq_some he)
  selected_iff key e he := by
    rw [← hcoherent key, Chart.marked?_of_getElem? he, Option.some.injEq]
  points key e he p := by
    have hmark : .put (Part.edgePoint key p).id (e.pointPrimitive p) ∈ e.marks s.measure key := by
      refine List.mem_append_right _ (List.mem_map_of_mem (f := fun p => Mark.put _ _) ?_)
      cases p <;> decide
    exact ⟨_, hs.depicts.getElem?_of_mem (.edge he) hmark, by cases p <;> rfl⟩
  handles id n hn h := by
    have hmark : .put (Part.nodeHandle id h).id (n.handlePrimitive h) ∈ n.marks id := by
      refine List.mem_append_right _ (List.mem_map_of_mem (f := fun h => Mark.put _ _) ?_)
      cases h <;> decide
    have hscene : s.picture.Scene s.measure (n.marks id) :=
      NodeItem.marks_bare id n ▸ .node (Chart.bare?_of_getElem? hn)
    exact ⟨_, hs.depicts.getElem?_of_mem hscene hmark, rfl⟩

end ChartStage

namespace Session

/-- The session is up to date, and the selected edge of its chart, if there is
    one, is the marked one. -/
structure Selecting (s : Session α) : Prop where
  current : s.Current
  coherent : ∀ c, s.picture = .chart c → c.Coherent

namespace Selecting

variable {s : Session α}

/-- At the start nothing is shown and nothing is selected. -/
theorem start (measure : Measure α) (store : Store α) : Selecting (Session.start measure store) where
  current := .start measure store
  coherent c hc := by
    cases hc
    exact Chart.coherent_empty

/-- The selected edge of the chart that is worked on is the marked one. -/
theorem chartStage (hs : s.Selecting) : s.chartStage.picture.Coherent := by
  unfold Session.chartStage
  split
  · exact hs.coherent _ ‹_›
  · exact Chart.coherent_empty

/-- What keeps the marks of every chart keeps those of the chart of a session.
    The surface must refuse nothing, since a refusal can part the selected edge
    from the marks. -/
theorem onChart (hs : s.Selecting) {f : ChartStage α → Outcome (ChartStage α)}
    (hf : ∀ t : ChartStage α, t.surface.Accepts → t.picture.Coherent → (f t).state.picture.Coherent) :
    ∀ c, (s.onChart f).state.picture = .chart c → c.Coherent := by
  intro c hc
  cases hpicture : s.picture with
  | chart before =>
    rw [onChart_of_chart hpicture] at hc
    obtain rfl := Picture.chart.inj hc
    exact hf (s.withPicture before) hs.current.accepts (hs.coherent before hpicture)
  | timeline t =>
    rw [Session.onChart, hpicture] at hc
    exact hs.coherent c hc

/-- Every plain call keeps the selected edge and the marks together. -/
theorem call (hs : s.Selecting) {c : Call α} (hc : c.Plain) : (s.call c).Selecting := by
  refine ⟨hs.current.call hc, ?_⟩
  cases c with
  | render d =>
    intro c hc
    cases d with
    | flowchart d =>
      obtain rfl := Picture.chart.inj hc
      exact ChartStage.coherent_render hs.chartStage d
    | sequence d => cases hc
  | clear =>
    intro c hc
    obtain rfl := Picture.chart.inj hc
    exact Chart.coherent_empty
  | updateSettings settings =>
    have hsettings : ∀ c, ({ s with settings } : Session α).picture = .chart c → c.Coherent := hs.coherent
    intro c hc
    unfold Session.call Session.updateSettings Session.onChart at hc
    dsimp only at hc
    split at hc
    · rename_i before hbefore
      obtain rfl := Picture.chart.inj hc
      exact (ChartStage.restyle_sameMarks _).coherent (hs.coherent before hbefore)
    · exact hs.coherent c hc
  | editChart e => exact hs.onChart fun t haccepts ht => ChartStage.coherent_edit haccepts ht e
  | editTimeline e =>
    intro c hc
    unfold Session.call Session.onTimeline at hc
    dsimp only at hc
    split at hc
    · exact hs.coherent c hc
    · cases hc
  | replaceStore store => exact hs.coherent
  | refuse ids => exact hc.elim

end Selecting

end Session

/-- No node of the diagram has a colon in its id. -/
def Diagram.Plain (diagram : Diagram) : Prop :=
  ∀ d, diagram = .flowchart d → ∀ id ∈ d.nodeIds, ColonFree id

theorem Diagram.OfText.plain {diagram : Diagram} (h : diagram.OfText) : diagram.Plain := by
  rintro d rfl id hid hcolon
  exact absurd ((h.isWord id hid).2 ':' hcolon) (by decide)

/-- The event makes the surface refuse nothing, and shows no diagram with colons
    in the ids of its nodes. Texts are texts of no such diagram. -/
def Event.Plain : Event α → Prop
  | .render d => d.Plain
  | .refuse _ => False
  | _ => True

omit [Scalar α] in
theorem Event.Plain.shows {e : Event α} (he : e.Plain) : e.Shows Diagram.Plain := by
  cases e <;> exact he

omit [Scalar α] in
/-- A call that shows plain diagrams and refuses nothing is plain. -/
theorem Call.plain_of_shows {c : Call α} (hc : c.Shows Diagram.Plain) : c.Plain := by
  cases c with
  | render diagram =>
    cases diagram with
    | flowchart d => exact hc d rfl
    | sequence d => trivial
  | refuse ids => exact hc.elim
  | clear | updateSettings _ | editChart _ | editTimeline _ | replaceStore _ => trivial

namespace Desk

/-- Plain events keep the selected edge and the marks together. -/
theorem selecting_events [YamlReader] {d : Desk α} (hd : d.session.Selecting) {es : List (Event α)}
    (hes : ∀ e ∈ es, e.Plain) :
    (d.events es).session.Selecting :=
  events_induction (fun text => (Diagram.ofText_ofText text).plain)
    (fun _ hc _ hs => hs.call (Call.plain_of_shows hc))
    (fun e he => (hes e he).shows) hd

/-- Whatever happens from the start on a surface that refuses nothing, in every
    state with a chart the selected edge is there and is the only one that is
    marked, its points and no other ones are seen, and so are the handles of the
    selected nodes and no other ones. Diagrams with colons in the ids of nodes
    are left out, as a node could then have a part of another one as its
    body. -/
theorem selectionShown_events [YamlReader] (measure : Measure α) (store : Store α) {es : List (Event α)}
    (hes : ∀ e ∈ es, e.Plain) {c : Chart α}
    (hc : ((Desk.start (Session.start measure store)).events es).session.picture = .chart c) :
    c.SelectionShown ((Desk.start (Session.start measure store)).events es).session.surface := by
  have hselecting := selecting_events (d := Desk.start (Session.start measure store))
    (.start measure store) hes
  exact (hselecting.current.chart c hc).inSync.selectionShown (hselecting.coherent c hc)

/-- The events that show a flowchart, select its edge and then its first node
    with the pointer, and show it without the edge. -/
def selectingEvents : List (Event Float) :=
  [.render (.flowchart
      { nodes := [⟨"a", "A", none⟩, ⟨"b", "B", none⟩]
        edges := [{ source := "a", target := "b", label := "x" }] }),
    .editChart (.toggleEdge (Edge.key { source := "a", target := "b", label := "x" })),
    .press ⟨10, 10⟩ .left false, .move ⟨40, 10⟩, .release ⟨40, 10⟩ .left,
    .render (.flowchart { nodes := [⟨"a", "A", none⟩, ⟨"b", "B", none⟩] })]

/-- An edge that was selected, and then went with its diagram, leaves no edge
    selected. -/
theorem selectionShown_events_selectingEvents :
    ∃ c, ((Desk.start (Session.start (fun _ => ⟨0, 0⟩) default)).events selectingEvents).session.picture =
        .chart c ∧
      c.SelectionShown
        ((Desk.start (Session.start (fun _ => ⟨0, 0⟩) default)).events selectingEvents).session.surface := by
  have hplain : ∀ e ∈ selectingEvents, e.Plain := by
    intro e he
    simp only [selectingEvents, List.mem_cons, List.not_mem_nil, or_false] at he
    rcases he with rfl | rfl | rfl | rfl | rfl | rfl
    · rintro d ⟨⟩
      decide
    · trivial
    · trivial
    · trivial
    · trivial
    · rintro d ⟨⟩
      decide
  exact ⟨_, rfl, selectionShown_events (fun _ => ⟨0, 0⟩) default hplain rfl⟩

end Desk

end LiveDiagram
