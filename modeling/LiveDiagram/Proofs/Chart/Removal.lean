import LiveDiagram.Proofs.Chart.Linked

namespace LiveDiagram

variable {α : Type}

namespace Chart

@[simp] theorem withoutEdge_classes (c : Chart α) (key : String) :
    (c.withoutEdge key).classes = c.classes := by
  unfold withoutEdge
  split
  · rfl
  · dsimp only
    split <;> rfl

@[simp] theorem withoutEdge_direction (c : Chart α) (key : String) :
    (c.withoutEdge key).direction = c.direction := by
  unfold withoutEdge
  split
  · rfl
  · dsimp only
    split <;> rfl

section WithoutEdges

variable (c : Chart α) (keys : List String)

/-- A chart without some edges has all of its other edges. The induction is on
    the edges that are still to be removed. -/
theorem foldl_withoutEdge_getElem? (key : String) :
    (keys.foldl withoutEdge c).edges[key]? = if key ∈ keys then none else c.edges[key]? := by
  induction keys generalizing c with
  | nil => simp
  | cons first keys ih =>
    rw [List.foldl_cons, ih, withoutEdge_edges_getElem?]
    by_cases hrest : key ∈ keys
    · simp [hrest]
    · by_cases hfirst : first = key
      · simp [hfirst]
      · simp [hrest, hfirst, Ne.symm hfirst]

/-- A chart without some edges has all of its nodes, but for their lists of
    edges. -/
theorem foldl_withoutEdge_bare? (id : String) :
    (keys.foldl withoutEdge c).bare? id = c.bare? id := by
  induction keys generalizing c with
  | nil => rfl
  | cons first keys ih => rw [List.foldl_cons, ih, withoutEdge_bare?]

theorem foldl_withoutEdge_classes : (keys.foldl withoutEdge c).classes = c.classes := by
  induction keys generalizing c with
  | nil => rfl
  | cons first keys ih => rw [List.foldl_cons, ih, withoutEdge_classes]

theorem foldl_withoutEdge_direction : (keys.foldl withoutEdge c).direction = c.direction := by
  induction keys generalizing c with
  | nil => rfl
  | cons first keys ih => rw [List.foldl_cons, ih, withoutEdge_direction]

theorem Linked.foldl_withoutEdge {c : Chart α} (hc : c.Linked) :
    (keys.foldl Chart.withoutEdge c).Linked := by
  induction keys generalizing c with
  | nil => exact hc
  | cons first keys ih => exact ih (hc.withoutEdge first)

end WithoutEdges

/-- The chart without a node and the edges that end at it. -/
def withoutNode (c : Chart α) (id : String) : Chart α :=
  match c.nodes[id]? with
  | none => c
  | some n =>
    let c := n.edgeKeys.foldl withoutEdge c
    { c with nodes := c.nodes.erase id }

/-- A chart without a node has all of its other nodes, but for their lists of
    edges. -/
theorem withoutNode_bare? (c : Chart α) (id other : String) :
    (c.withoutNode id).bare? other = if id = other then none else c.bare? other := by
  unfold withoutNode
  cases hn : c.nodes[id]? with
  | none =>
    dsimp only
    split
    · rename_i heq
      exact bare?_eq_none_iff.mpr (heq ▸ hn)
    · rfl
  | some n =>
    have hother := foldl_withoutEdge_bare? c n.edgeKeys other
    unfold bare? at hother ⊢
    dsimp only
    by_cases heq : id = other
    · simp [heq]
    · rw [if_neg heq, ← hother]
      grind

@[simp] theorem withoutNode_classes (c : Chart α) (id : String) :
    (c.withoutNode id).classes = c.classes := by
  unfold withoutNode
  split
  · rfl
  · exact foldl_withoutEdge_classes c _

@[simp] theorem withoutNode_direction (c : Chart α) (id : String) :
    (c.withoutNode id).direction = c.direction := by
  unfold withoutNode
  split
  · rfl
  · exact foldl_withoutEdge_direction c _

/-- The edges that are left without a node are those that do not end at it. A
    linked chart has no edge at a node that is not there, so this holds of such
    a node too. -/
theorem Linked.withoutNode_getElem? {c : Chart α} (hc : c.Linked) (id key : String) :
    (c.withoutNode id).edges[key]? = c.edges[key]?.filter fun e => ¬ e.edge.EndsAt id := by
  unfold withoutNode
  cases hn : c.nodes[id]? with
  | none =>
    dsimp only
    cases he : c.edges[key]? with
    | none => rfl
    | some e =>
      have hnot : ¬ e.edge.EndsAt id := by
        intro hat
        have hmem : id ∈ c.nodes := by
          rcases hat with rfl | rfl
          · exact hc.source_mem he
          · exact hc.target_mem he
        simp [Std.ExtTreeMap.mem_iff_isSome_getElem?, hn] at hmem
      simp [Option.filter_some, hnot]
  | some n =>
    dsimp only
    rw [foldl_withoutEdge_getElem?]
    cases he : c.edges[key]? with
    | none => simp
    | some e =>
      have hiff : key ∈ n.edgeKeys ↔ e.edge.EndsAt id := by
        rw [hc.mem_edgeKeys hn key, he]
        simp
      by_cases hat : e.edge.EndsAt id <;> simp [Option.filter_some, hiff, hat]

/-- A linked chart is linked without a node too. The remaining nodes are those
    of the chart without the edges of that node, whose lists are right
    already. -/
theorem Linked.withoutNode {c : Chart α} (hc : c.Linked) (id : String) :
    (c.withoutNode id).Linked := by
  have hedges := hc.withoutNode_getElem? id
  have hmem : ∀ other, other ∈ (c.withoutNode id).nodes ↔ other ≠ id ∧ other ∈ c.nodes := by
    intro other
    rw [mem_nodes_iff, mem_nodes_iff, withoutNode_bare?]
    by_cases heq : id = other
    · simp [heq]
    · simp [heq, Ne.symm heq]
  have hends : ∀ {key : String} {e : EdgeItem α}, (c.withoutNode id).edges[key]? = some e →
      c.edges[key]? = some e ∧ ¬ e.edge.EndsAt id := by
    intro key e he
    rw [hedges, Option.filter_eq_some_iff] at he
    exact ⟨he.1, by simpa using he.2⟩
  have hlisted : ∀ {other : String} {m : NodeItem α}, (c.withoutNode id).nodes[other]? = some m →
      (∀ key, key ∈ m.edgeKeys ↔ ∃ e, (c.withoutNode id).edges[key]? = some e ∧ e.edge.EndsAt other) ∧
        m.edgeKeys.Nodup := by
    intro other m hm
    cases hn : c.nodes[id]? with
    | none =>
      have hsame : c.withoutNode id = c := by
        unfold Chart.withoutNode
        rw [hn]
      rw [hsame] at hm ⊢
      exact ⟨hc.mem_edgeKeys hm, hc.nodup_edgeKeys hm⟩
    | some n =>
      have hkept := hc.foldl_withoutEdge n.edgeKeys
      have hsame : c.withoutNode id =
          { n.edgeKeys.foldl Chart.withoutEdge c with
            nodes := (n.edgeKeys.foldl Chart.withoutEdge c).nodes.erase id } := by
        unfold Chart.withoutNode
        rw [hn]
      rw [hsame] at hm ⊢
      have hm' : (n.edgeKeys.foldl Chart.withoutEdge c).nodes[other]? = some m := by
        dsimp only at hm
        grind
      exact ⟨hkept.mem_edgeKeys hm', hkept.nodup_edgeKeys hm'⟩
  exact {
    keyed := fun h => hc.keyed (hends h).1
    source_mem := fun h => (hmem _).mpr
      ⟨fun heq => (hends h).2 (.inl heq), hc.source_mem (hends h).1⟩
    target_mem := fun h => (hmem _).mpr
      ⟨fun heq => (hends h).2 (.inr heq), hc.target_mem (hends h).1⟩
    mem_edgeKeys := fun h => (hlisted h).1
    nodup_edgeKeys := fun h => (hlisted h).2 }

section WithoutNodes

variable (c : Chart α) (ids : List String)

/-- A chart without some nodes has all of its other nodes, but for their lists
    of edges. -/
theorem foldl_withoutNode_bare? (id : String) :
    (ids.foldl withoutNode c).bare? id = if id ∈ ids then none else c.bare? id := by
  induction ids generalizing c with
  | nil => simp
  | cons first ids ih =>
    rw [List.foldl_cons, ih, withoutNode_bare?]
    by_cases hrest : id ∈ ids
    · simp [hrest]
    · by_cases hfirst : first = id
      · simp [hfirst]
      · simp [hrest, hfirst, Ne.symm hfirst]

theorem foldl_withoutNode_classes : (ids.foldl withoutNode c).classes = c.classes := by
  induction ids generalizing c with
  | nil => rfl
  | cons first ids ih => rw [List.foldl_cons, ih, withoutNode_classes]

theorem foldl_withoutNode_direction : (ids.foldl withoutNode c).direction = c.direction := by
  induction ids generalizing c with
  | nil => rfl
  | cons first ids ih => rw [List.foldl_cons, ih, withoutNode_direction]

end WithoutNodes

end Chart

end LiveDiagram
