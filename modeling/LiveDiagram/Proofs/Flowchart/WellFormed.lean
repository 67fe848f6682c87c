import LiveDiagram.Proofs.Flowchart.Ids

namespace LiveDiagram

open Text

namespace Flowchart

/-- A flowchart that agrees with its lines: its edges have their nodes, and each
    node is there once. The nodes that some line labels come first; the rest are
    the ends of edges that no line labels, and they are their own labels. -/
structure WellFormed (d : Flowchart) (lines : List (List Char)) : Prop where
  nodup : d.nodeIds.Nodup
  words : ∀ id ∈ d.nodeIds, IsWord id.toList
  ends : ∀ e ∈ d.edges, e.source ∈ d.nodeIds ∧ e.target ∈ d.nodeIds
  /-- Each node stands where a line labels it first, from left to right, and
      behind those each other one stands where an edge mentions it first. -/
  order : d.nodeIds = (lines.flatMap labelledIn).eraseDups
    ++ ((d.edges.flatMap fun e => [e.source, e.target]).filter (· ∉ lines.flatMap labelledIn)).eraseDups
  unlabelled : ∀ n ∈ d.nodes, n.id ∉ lines.flatMap labelledIn → n.label = n.id
  classNames : ∀ n ∈ d.nodes, n.className = lastClass? (joins (lines.map Definition.ofLine)) n.id

section Lines

variable {lines : List (List Char)} {config : Config}

/-- Both ends of an edge that lines state are nodes of the flowchart. -/
theorem mem_nodeIds_of_mem_edges {e : Edge} (he : e ∈ (ofLines lines config).edges) :
    e.source ∈ (ofLines lines config).nodeIds ∧ e.target ∈ (ofLines lines config).nodeIds := by
  have hend : ∀ id ∈ [e.source, e.target], id ∈ (ofLines lines config).nodeIds := fun id hid => by
    rw [nodeIds_ofLines, List.mem_eraseDups]
    exact List.mem_append_right _ (List.mem_flatMap.mpr ⟨e, he, hid⟩)
  exact ⟨hend _ List.mem_cons_self, hend _ (List.mem_cons_of_mem _ List.mem_cons_self)⟩

/-- What is known about a node that the lines state: its label and its class,
    each the last one that a line gives. -/
theorem of_mem_nodes_ofLines {n : Node} (hn : n ∈ (ofLines lines config).nodes) :
    n.label = (Naming.lastLabel? (namings ((lines.filterMap Statement.ofLine?).flatMap Statement.declarations)
      (ofLines lines config).edges) n.id).getD n.id ∧
      n.className = lastClass? (joins (lines.map Definition.ofLine)) n.id :=
  of_mem_nodesOf hn

/-- A node that no line labels is its own label. -/
theorem label_eq_id {n : Node} (hn : n ∈ (ofLines lines config).nodes) (hid : n.id ∉ lines.flatMap labelledIn) :
    n.label = n.id := by
  rw [← map_fst_declarations_ofLines] at hid
  rw [(of_mem_nodes_ofLines hn).1, namings, Naming.lastLabel?_append, Naming.lastLabel?_unlabelled,
    Naming.lastLabel?_eq_none, Option.none_or, Option.getD_none]
  intro naming hnaming heq
  obtain ⟨entry, hentry, rfl⟩ := List.mem_map.mp hnaming
  exact absurd (List.mem_map.mpr ⟨entry, hentry, heq⟩) hid

end Lines

/-- Lines state a well-formed flowchart, whatever the lines are and whatever the
    settings. -/
theorem wellFormed_ofLines (lines : List (List Char)) (config : Config) :
    (ofLines lines config).WellFormed lines where
  nodup := by
    rw [nodeIds_ofLines]
    exact nodup_eraseDups _
  words := isWord_ofLines
  ends _ he := mem_nodeIds_of_mem_edges he
  order := by
    rw [nodeIds_ofLines, List.eraseDups_append, List.removeAll]
    simp only [List.elem_eq_mem, decide_not]
  unlabelled _ hn hid := label_eq_id hn hid
  classNames _ hn := (of_mem_nodes_ofLines hn).2

end Flowchart

/-- A text that states a flowchart states a well-formed one. Nothing is asked of
    the text but that its first statement does not speak of a sequence
    diagram. -/
theorem Diagram.wellFormed_flowchart [YamlReader] {text : String} {d : Flowchart} (h : ofText text = .flowchart d) :
    d.WellFormed (statementLines text) := by
  rw [(ofText_eq_flowchart_iff.mp h).2]
  exact Flowchart.wellFormed_ofLines _ _

namespace Flowchart

/-- A text in which nodes are mentioned before they are labelled, one is
    labelled twice, and two join two classes. -/
def severallyLabelledText : String :=
  "flowchart LR\na --> b:::hot\nb[Bee] --> c & a[\"Ay\"] & ?\nclass a, c, z cold;\na:::hot <--> d\ne[]\nb[\"Bea\"]"

/-- The flowchart of that text. No line labels `c` and `d`, and `e` is no
    node. -/
def severallyLabelled : Flowchart where
  direction := .leftRight
  nodes := [⟨"b", "Bea", some "hot"⟩, ⟨"a", "Ay", some "hot"⟩, ⟨"c", "c", some "cold"⟩,
    ⟨"d", "d", none⟩]
  edges := [⟨"a", "b", "", .arrow⟩, ⟨"b", "c", "", .arrow⟩, ⟨"b", "a", "", .arrow⟩,
    ⟨"a", "d", "", .bidirectional⟩]

end Flowchart

/-- The text in which one node is labelled twice and two join two classes. -/
theorem Diagram.wellFormed_flowchart_severallyLabelled :
    ofText Flowchart.severallyLabelledText = .flowchart Flowchart.severallyLabelled ∧
      Flowchart.severallyLabelled.WellFormed (statementLines Flowchart.severallyLabelledText) :=
  ⟨rfl, wellFormed_flowchart rfl⟩

end LiveDiagram
