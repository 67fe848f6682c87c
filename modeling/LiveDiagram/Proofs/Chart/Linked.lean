import LiveDiagram.Proofs.Chart.Lookup

namespace LiveDiagram

variable {α : Type}

/-- Whether one of the ends of the edge is that node. -/
def Edge.EndsAt (e : Edge) (id : String) : Prop :=
  e.source = id ∨ e.target = id

instance (e : Edge) (id : String) : Decidable (e.EndsAt id) :=
  inferInstanceAs (Decidable (_ ∨ _))

namespace Chart

/-- Every edge stands under its own key and ends at nodes that are there, and
    every node lists exactly the edges that end at it, each of them once. Every
    change that a chart goes through keeps it linked. -/
structure Linked (c : Chart α) : Prop where
  keyed : ∀ {key : String} {e : EdgeItem α}, c.edges[key]? = some e → e.edge.key = key
  source_mem : ∀ {key : String} {e : EdgeItem α}, c.edges[key]? = some e → e.edge.source ∈ c.nodes
  target_mem : ∀ {key : String} {e : EdgeItem α}, c.edges[key]? = some e → e.edge.target ∈ c.nodes
  mem_edgeKeys : ∀ {id : String} {n : NodeItem α}, c.nodes[id]? = some n → ∀ key,
    key ∈ n.edgeKeys ↔ ∃ e, c.edges[key]? = some e ∧ e.edge.EndsAt id
  nodup_edgeKeys : ∀ {id : String} {n : NodeItem α}, c.nodes[id]? = some n → n.edgeKeys.Nodup

theorem linked_empty : (empty : Chart α).Linked where
  keyed h := by simp [empty] at h
  source_mem h := by simp [empty] at h
  target_mem h := by simp [empty] at h
  mem_edgeKeys h := by simp [empty] at h
  nodup_edgeKeys h := by simp [empty] at h

namespace Linked

variable {c c' : Chart α}

/-- Whether a chart is linked is seen at its nodes and edges alone. -/
theorem congr (hc : c.Linked) (hnodes : c'.nodes = c.nodes) (hedges : c'.edges = c.edges) :
    c'.Linked where
  keyed h := hc.keyed (hedges ▸ h)
  source_mem h := hnodes ▸ hc.source_mem (hedges ▸ h)
  target_mem h := hnodes ▸ hc.target_mem (hedges ▸ h)
  mem_edgeKeys h := hedges ▸ hc.mem_edgeKeys (hnodes ▸ h)
  nodup_edgeKeys h := hc.nodup_edgeKeys (hnodes ▸ h)

/-- An edge of a linked chart has both of its ends on it. -/
theorem ends?_isSome (hc : c.Linked) {key : String} {e : EdgeItem α} (he : c.edges[key]? = some e) :
    (c.ends? e.edge).isSome :=
  Chart.ends?_isSome.mpr ⟨hc.source_mem he, hc.target_mem he⟩

/-- A node may change in all but its list of edges. -/
theorem setNode (hc : c.Linked) {id : String} {n n' : NodeItem α} (hn : c.nodes[id]? = some n)
    (hkeys : n'.edgeKeys = n.edgeKeys) : (c.setNode id n').Linked where
  keyed h := hc.keyed h
  source_mem h := by
    have hmem := hc.source_mem h
    grind [Chart.setNode]
  target_mem h := by
    have hmem := hc.target_mem h
    grind [Chart.setNode]
  mem_edgeKeys {other m} h key := by
    rw [setNode_getElem?] at h
    split at h
    · rename_i heq
      subst heq
      cases h
      rw [hkeys]
      exact hc.mem_edgeKeys hn key
    · exact hc.mem_edgeKeys h key
  nodup_edgeKeys {other m} h := by
    rw [setNode_getElem?] at h
    split at h
    · cases h
      exact hkeys ▸ hc.nodup_edgeKeys hn
    · exact hc.nodup_edgeKeys h

/-- A new node has no edges: those that are there end at nodes that are
    there. -/
theorem addNode (hc : c.Linked) {id : String} {n : NodeItem α} (hid : c.nodes[id]? = none)
    (hkeys : n.edgeKeys = []) : (c.setNode id n).Linked where
  keyed h := hc.keyed h
  source_mem h := by
    have hmem := hc.source_mem h
    grind [Chart.setNode]
  target_mem h := by
    have hmem := hc.target_mem h
    grind [Chart.setNode]
  mem_edgeKeys {other m} h key := by
    rw [setNode_getElem?] at h
    split at h
    · rename_i heq
      subst heq
      cases h
      rw [hkeys]
      constructor
      · intro hmem
        simp at hmem
      · rintro ⟨e, he, hends⟩
        have hmem : id ∈ c.nodes := by
          rcases hends with rfl | rfl
          · exact hc.source_mem he
          · exact hc.target_mem he
        simp [Std.ExtTreeMap.mem_iff_isSome_getElem?, hid] at hmem
    · exact hc.mem_edgeKeys h key
  nodup_edgeKeys {other m} h := by
    rw [setNode_getElem?] at h
    split at h
    · cases h
      rw [hkeys]
      exact List.nodup_nil
    · exact hc.nodup_edgeKeys h

/-- An edge may change in all but what the flowchart states about it. -/
theorem setEdge (hc : c.Linked) {key : String} {e e' : EdgeItem α} (he : c.edges[key]? = some e)
    (hedge : e'.edge = e.edge) : (c.setEdge key e').Linked where
  keyed {other f} h := by
    rw [setEdge_getElem?] at h
    split at h
    · rename_i heq
      subst heq
      cases h
      exact hedge ▸ hc.keyed he
    · exact hc.keyed h
  source_mem {other f} h := by
    rw [setEdge_getElem?] at h
    split at h
    · cases h
      exact hedge ▸ hc.source_mem he
    · exact hc.source_mem h
  target_mem {other f} h := by
    rw [setEdge_getElem?] at h
    split at h
    · cases h
      exact hedge ▸ hc.target_mem he
    · exact hc.target_mem h
  mem_edgeKeys {id n} h other := by
    rw [hc.mem_edgeKeys h other, setEdge_getElem?]
    by_cases hkey : key = other
    · subst hkey
      simp [he, hedge]
    · simp [hkey]
  nodup_edgeKeys h := hc.nodup_edgeKeys h

end Linked

/-- The chart in which the nodes of a new edge list it. An edge from a node to
    itself is listed there once. -/
def joined (c : Chart α) (spec : Edge) : Chart α :=
  let c := c.link spec.key spec.source
  if spec.target = spec.source then c else c.link spec.key spec.target

@[simp] theorem joined_edges (c : Chart α) (spec : Edge) : (c.joined spec).edges = c.edges := by
  unfold joined
  split <;> rfl

@[simp] theorem joined_classes (c : Chart α) (spec : Edge) : (c.joined spec).classes = c.classes := by
  unfold joined
  split <;> rfl

@[simp] theorem joined_direction (c : Chart α) (spec : Edge) :
    (c.joined spec).direction = c.direction := by
  unfold joined
  split <;> rfl

@[simp] theorem joined_bare? (c : Chart α) (spec : Edge) (id : String) :
    (c.joined spec).bare? id = c.bare? id := by
  unfold joined
  split <;> simp

/-- A node lists a new edge exactly if it is one of its ends. -/
theorem joined_getElem? (c : Chart α) (spec : Edge) (id : String) :
    (c.joined spec).nodes[id]? =
      if spec.EndsAt id then
        c.nodes[id]?.map fun n => { n with edgeKeys := n.edgeKeys ++ [spec.key] }
      else c.nodes[id]? := by
  unfold joined Edge.EndsAt
  by_cases hloop : spec.target = spec.source
  · simp [hloop, link_getElem?]
  · by_cases hsource : spec.source = id
    · subst hsource
      simp [hloop, link_getElem?]
    · by_cases htarget : spec.target = id
      · subst htarget
        simp [hloop, hsource, link_getElem?]
      · simp [hloop, hsource, htarget, link_getElem?]

/-- A new edge between nodes of the chart is listed at both of them, at one node
    only once. Its key has to be new, because the nodes would list it again
    otherwise. -/
theorem Linked.addEdge {c : Chart α} (hc : c.Linked) {e : EdgeItem α}
    (hkey : c.edges[e.edge.key]? = none) (hends : (c.ends? e.edge).isSome) :
    ((c.joined e.edge).setEdge e.edge.key e).Linked where
  keyed {key f} h := by
    rw [setEdge_getElem?, joined_edges] at h
    split at h
    · cases h
      assumption
    · exact hc.keyed h
  source_mem {key f} h := by
    rw [setEdge_getElem?, joined_edges] at h
    rw [setEdge_nodes, mem_nodes_congr (joined_bare? c e.edge _)]
    split at h
    · cases h
      exact (Chart.ends?_isSome.mp hends).1
    · exact hc.source_mem h
  target_mem {key f} h := by
    rw [setEdge_getElem?, joined_edges] at h
    rw [setEdge_nodes, mem_nodes_congr (joined_bare? c e.edge _)]
    split at h
    · cases h
      exact (Chart.ends?_isSome.mp hends).2
    · exact hc.target_mem h
  mem_edgeKeys {id n} h key := by
    rw [setEdge_nodes, joined_getElem?] at h
    rw [setEdge_getElem?, joined_edges]
    split at h
    · rename_i hat
      obtain ⟨m, hm, rfl⟩ := Option.map_eq_some_iff.mp h
      have hold := hc.mem_edgeKeys hm key
      by_cases heq : e.edge.key = key
      · subst heq
        simp [hat]
      · simp [heq, hold, Ne.symm heq]
    · rename_i hat
      have hold := hc.mem_edgeKeys h key
      by_cases heq : e.edge.key = key
      · subst heq
        simp [hold, hkey, hat]
      · simp [heq, hold]
  nodup_edgeKeys {id n} h := by
    rw [setEdge_nodes, joined_getElem?] at h
    split at h
    · obtain ⟨m, hm, rfl⟩ := Option.map_eq_some_iff.mp h
      have hfresh : e.edge.key ∉ m.edgeKeys := by
        intro hmem
        obtain ⟨f, hf, -⟩ := (hc.mem_edgeKeys hm _).mp hmem
        rw [hkey] at hf
        cases hf
      exact List.nodup_append.mpr ⟨hc.nodup_edgeKeys hm, by simp, by simp; rintro a ha rfl; exact hfresh ha⟩
    · exact hc.nodup_edgeKeys h

/-- The chart without an edge. If the edge was selected, then none is selected
    any more. -/
def withoutEdge (c : Chart α) (key : String) : Chart α :=
  match c.edges[key]? with
  | none => c
  | some e =>
    let c := (c.unlink key e.edge.source).unlink key e.edge.target
    let c := if c.selectedEdge = some key then { c with selectedEdge := none } else c
    { c with edges := c.edges.erase key }

/-- A chart without an edge has all of its other edges. -/
theorem withoutEdge_edges_getElem? (c : Chart α) (key other : String) :
    (c.withoutEdge key).edges[other]? = if key = other then none else c.edges[other]? := by
  unfold withoutEdge
  split
  · grind
  · dsimp only
    split <;> grind [unlink_edges]

/-- A chart without an edge has all of its nodes, but for their lists of
    edges. -/
@[simp] theorem withoutEdge_bare? (c : Chart α) (key id : String) :
    (c.withoutEdge key).bare? id = c.bare? id := by
  unfold withoutEdge
  split
  · rfl
  · rename_i e _
    have hunlinked := (unlink_bare? (c.unlink key e.edge.source) key e.edge.target id).trans
      (unlink_bare? c key e.edge.source id)
    dsimp only
    split <;> exact hunlinked

/-- The nodes of a chart without an edge do not list it any more. On a chart
    that is not linked a third node could list it, and would do so still. -/
theorem Linked.withoutEdge_getElem? {c : Chart α} (hc : c.Linked) (key id : String) :
    (c.withoutEdge key).nodes[id]? =
      c.nodes[id]?.map fun n => { n with edgeKeys := n.edgeKeys.filter fun k => k != key } := by
  have hlisted : ∀ n, c.nodes[id]? = some n → (∀ e, c.edges[key]? = some e → ¬ e.edge.EndsAt id) →
      (n.edgeKeys.filter fun k => k != key) = n.edgeKeys := by
    intro n hn hnot
    rw [List.filter_eq_self]
    intro k hk
    obtain ⟨f, hf, hat⟩ := (hc.mem_edgeKeys hn k).mp hk
    simp only [bne_iff_ne, ne_eq]
    rintro rfl
    exact hnot f hf hat
  unfold withoutEdge
  cases he : c.edges[key]? with
  | none =>
    cases hn : c.nodes[id]? with
    | none => rfl
    | some n => simp [hlisted n hn (by simp [he])]
  | some e =>
    have hunlinked : ((c.unlink key e.edge.source).unlink key e.edge.target).nodes[id]? =
        c.nodes[id]?.map fun n => { n with edgeKeys := n.edgeKeys.filter fun k => k != key } := by
      rw [unlink_getElem?, unlink_getElem?]
      cases hn : c.nodes[id]? with
      | none => simp
      | some n =>
        by_cases hsource : e.edge.source = id
        · by_cases htarget : e.edge.target = id <;> simp [hsource, htarget, List.filter_filter]
        · by_cases htarget : e.edge.target = id
          · simp [hsource, htarget]
          · have hnot : ∀ f, c.edges[key]? = some f → ¬ f.edge.EndsAt id := by
              intro f hf
              rw [he] at hf
              cases hf
              rintro (h | h)
              · exact hsource h
              · exact htarget h
            simp [hsource, htarget, hlisted n hn hnot]
    dsimp only
    split <;> exact hunlinked

/-- A linked chart is linked without an edge too. -/
theorem Linked.withoutEdge {c : Chart α} (hc : c.Linked) (key : String) :
    (c.withoutEdge key).Linked where
  keyed {other f} h := by
    rw [withoutEdge_edges_getElem?] at h
    split at h
    · cases h
    · exact hc.keyed h
  source_mem {other f} h := by
    rw [withoutEdge_edges_getElem?] at h
    rw [mem_nodes_congr (withoutEdge_bare? c key _)]
    split at h
    · cases h
    · exact hc.source_mem h
  target_mem {other f} h := by
    rw [withoutEdge_edges_getElem?] at h
    rw [mem_nodes_congr (withoutEdge_bare? c key _)]
    split at h
    · cases h
    · exact hc.target_mem h
  mem_edgeKeys {id n} h other := by
    rw [hc.withoutEdge_getElem?] at h
    obtain ⟨m, hm, rfl⟩ := Option.map_eq_some_iff.mp h
    rw [withoutEdge_edges_getElem?, List.mem_filter, hc.mem_edgeKeys hm other]
    by_cases heq : key = other
    · simp [heq]
    · simp [heq, Ne.symm heq]
  nodup_edgeKeys {id n} h := by
    rw [hc.withoutEdge_getElem?] at h
    obtain ⟨m, hm, rfl⟩ := Option.map_eq_some_iff.mp h
    exact (hc.nodup_edgeKeys hm).filter _

end Chart

end LiveDiagram
