import LiveDiagram.Chart.Render

namespace LiveDiagram

variable {α : Type}

/-- The node without its list of edges. -/
def NodeItem.bare (n : NodeItem α) : NodeItem α :=
  { n with edgeKeys := [] }

namespace Chart

/-- The node with that id, without its list of edges. Drawing and routing do not
    read that list, so most of what happens to a chart is stated for nodes
    without it. -/
def bare? (c : Chart α) (id : String) : Option (NodeItem α) :=
  c.nodes[id]?.map NodeItem.bare

theorem bare?_eq_none_iff {c : Chart α} {id : String} : c.bare? id = none ↔ c.nodes[id]? = none := by
  simp [bare?]

theorem bare?_of_getElem? {c : Chart α} {id : String} {n : NodeItem α} (hn : c.nodes[id]? = some n) :
    c.bare? id = some n.bare := by
  rw [bare?, hn]
  rfl

theorem exists_of_bare? {c : Chart α} {id : String} {n : NodeItem α} (hn : c.bare? id = some n) :
    ∃ m, c.nodes[id]? = some m ∧ m.bare = n :=
  Option.map_eq_some_iff.mp hn

theorem mem_nodes_iff {c : Chart α} {id : String} : id ∈ c.nodes ↔ (c.bare? id).isSome := by
  rw [Std.ExtTreeMap.mem_iff_isSome_getElem?, bare?, Option.isSome_map]

theorem mem_nodes_congr {c c' : Chart α} {id : String} (hbare : c'.bare? id = c.bare? id) :
    id ∈ c'.nodes ↔ id ∈ c.nodes := by
  rw [mem_nodes_iff, mem_nodes_iff, hbare]

/-- A node that is put is found under its id, and nothing else changes. -/
@[simp] theorem setNode_getElem? (c : Chart α) (id other : String) (n : NodeItem α) :
    (c.setNode id n).nodes[other]? = if id = other then some n else c.nodes[other]? := by
  simp only [setNode]
  grind

/-- A node that is put is found under its id, without its list of edges. -/
theorem setNode_bare? (c : Chart α) (id other : String) (n : NodeItem α) :
    (c.setNode id n).bare? other = if id = other then some n.bare else c.bare? other := by
  rw [bare?, setNode_getElem?]
  split <;> rfl

/-- An edge that is put is found under its key, and nothing else changes. -/
@[simp] theorem setEdge_getElem? (c : Chart α) (key other : String) (e : EdgeItem α) :
    (c.setEdge key e).edges[other]? = if key = other then some e else c.edges[other]? := by
  simp only [setEdge]
  grind

@[simp] theorem setEdge_nodes (c : Chart α) (key : String) (e : EdgeItem α) :
    (c.setEdge key e).nodes = c.nodes :=
  rfl

@[simp] theorem setNode_edges (c : Chart α) (id : String) (n : NodeItem α) :
    (c.setNode id n).edges = c.edges :=
  rfl

theorem setEdge_self {c : Chart α} {key : String} {e : EdgeItem α} (he : c.edges[key]? = some e) :
    c.setEdge key e = c := by
  have hedges : c.edges.insert key e = c.edges := by
    apply Std.ExtTreeMap.ext_getElem?
    intro other
    grind
  unfold setEdge
  rw [hedges]

/-- Of two edges put under one key the last one counts. -/
theorem setEdge_setEdge (c : Chart α) (key : String) (e e' : EdgeItem α) :
    (c.setEdge key e).setEdge key e' = c.setEdge key e' := by
  have hedges : (c.edges.insert key e).insert key e' = c.edges.insert key e' := by
    apply Std.ExtTreeMap.ext_getElem?
    intro other
    grind
  unfold setEdge
  dsimp only
  rw [hedges]

/-- Listing an edge at a node is seen at that node only. If the node is not
    there, nothing happens. -/
theorem link_getElem? (c : Chart α) (key id other : String) :
    (c.link key id).nodes[other]? =
      if id = other then c.nodes[other]?.map fun n => { n with edgeKeys := n.edgeKeys ++ [key] }
      else c.nodes[other]? := by
  simp only [link]
  grind

/-- Striking an edge off the list of a node is seen at that node only. It is
    struck off as often as it is listed. -/
theorem unlink_getElem? (c : Chart α) (key id other : String) :
    (c.unlink key id).nodes[other]? =
      if id = other then
        c.nodes[other]?.map fun n => { n with edgeKeys := n.edgeKeys.filter fun k => k != key }
      else c.nodes[other]? := by
  simp only [unlink]
  grind

@[simp] theorem link_edges (c : Chart α) (key id : String) : (c.link key id).edges = c.edges :=
  rfl

@[simp] theorem unlink_edges (c : Chart α) (key id : String) : (c.unlink key id).edges = c.edges :=
  rfl

@[simp] theorem link_bare? (c : Chart α) (key id other : String) :
    (c.link key id).bare? other = c.bare? other := by
  rw [bare?, bare?, link_getElem?]
  split
  · rw [Option.map_map]
    rfl
  · rfl

@[simp] theorem unlink_bare? (c : Chart α) (key id other : String) :
    (c.unlink key id).bare? other = c.bare? other := by
  rw [bare?, bare?, unlink_getElem?]
  split
  · rw [Option.map_map]
    rfl
  · rfl

/-- The rectangles of the two ends of an edge, found on the bare nodes. -/
theorem ends?_eq_bare? (c : Chart α) (e : Edge) :
    c.ends? e = (c.bare? e.source).bind fun source =>
      (c.bare? e.target).map fun target => (source.rect, target.rect) := by
  unfold ends? bare?
  cases c.nodes[e.source]? <;> cases c.nodes[e.target]? <;> rfl

/-- The ends of an edge depend on the two nodes alone, without their lists. -/
theorem ends?_congr {c c' : Chart α} {e : Edge} (hsource : c'.bare? e.source = c.bare? e.source)
    (htarget : c'.bare? e.target = c.bare? e.target) : c'.ends? e = c.ends? e := by
  rw [ends?_eq_bare?, ends?_eq_bare?, hsource, htarget]

/-- An edge has two ends on the chart exactly if both of its nodes are there. -/
theorem ends?_isSome {c : Chart α} {e : Edge} :
    (c.ends? e).isSome ↔ e.source ∈ c.nodes ∧ e.target ∈ c.nodes := by
  rw [Std.ExtTreeMap.mem_iff_isSome_getElem?, Std.ExtTreeMap.mem_iff_isSome_getElem?, ends?]
  cases c.nodes[e.source]? <;> cases c.nodes[e.target]? <;> simp

end Chart

end LiveDiagram
