import LiveDiagram.Proofs.Chart.Placement

namespace LiveDiagram

namespace ChartStage

section DistinctEdges

/-- Keeping edges one by one, unless one with their key is kept already, keeps
    every key. The induction is on the edges that are still to be looked at. -/
private theorem foldl_distinct_key_mem (edges kept : List Edge) (key : String) :
    key ∈ (edges.foldl (fun kept e =>
        if kept.any fun k => k.key == e.key then kept else kept ++ [e]) kept).map Edge.key ↔
      key ∈ kept.map Edge.key ∨ key ∈ edges.map Edge.key := by
  induction edges generalizing kept with
  | nil => simp
  | cons e edges ih =>
    rw [List.foldl_cons, ih]
    by_cases hany : (kept.any fun k => k.key == e.key) = true
    · rw [if_pos hany]
      have hmem : e.key ∈ kept.map Edge.key := by simpa using hany
      constructor
      · rintro (h | h)
        · exact .inl h
        · exact .inr (List.mem_cons_of_mem _ h)
      · rintro (h | h)
        · exact .inl h
        · rcases List.mem_cons.mp h with rfl | h
          · exact .inl hmem
          · exact .inr h
    · rw [if_neg hany]
      simp [or_assoc]

/-- Keeping edges one by one, unless one with their key is kept already, keeps
    no key twice. -/
private theorem foldl_distinct_nodup (edges : List Edge) {kept : List Edge}
    (hkept : (kept.map Edge.key).Nodup) :
    ((edges.foldl (fun kept e =>
      if kept.any fun k => k.key == e.key then kept else kept ++ [e]) kept).map Edge.key).Nodup := by
  induction edges generalizing kept with
  | nil => exact hkept
  | cons e edges ih =>
    rw [List.foldl_cons]
    by_cases hany : (kept.any fun k => k.key == e.key) = true
    · rw [if_pos hany]
      exact ih hkept
    · rw [if_neg hany]
      apply ih
      have hnot : e.key ∉ kept.map Edge.key := by simpa using hany
      rw [List.map_append, List.nodup_append]
      refine ⟨hkept, by simp, ?_⟩
      intro a ha b hb heq
      rw [List.map_singleton, List.mem_singleton] at hb
      exact hnot (hb ▸ heq ▸ ha)

/-- Leaving out edges with the key of an earlier one leaves out no key. -/
theorem mem_map_key_distinctEdges {edges : List Edge} {key : String} :
    key ∈ (distinctEdges edges).map Edge.key ↔ key ∈ edges.map Edge.key := by
  have h := foldl_distinct_key_mem edges [] key
  rw [List.map_nil] at h
  simpa [distinctEdges] using h

/-- No two of the edges that are kept have the same key. -/
theorem nodup_map_key_distinctEdges (edges : List Edge) :
    ((distinctEdges edges).map Edge.key).Nodup :=
  foldl_distinct_nodup edges List.nodup_nil

/-- Of edges with different keys, each is the first one with its key. -/
theorem find?_key_of_nodup {edges : List Edge} (hnodup : (edges.map Edge.key).Nodup) {e : Edge}
    (he : e ∈ edges) : edges.find? (fun f => f.key == e.key) = some e := by
  induction edges with
  | nil => cases he
  | cons first edges ih =>
    rw [List.map_cons, List.nodup_cons] at hnodup
    rcases List.mem_cons.mp he with rfl | hrest
    · simp
    · have hne : first.key ≠ e.key := fun heq => hnodup.1 (heq ▸ List.mem_map_of_mem hrest)
      rw [List.find?_cons_of_neg (by simpa using hne)]
      exact ih hnodup.2 hrest

end DistinctEdges

variable {α : Type} [Scalar α]

/-- A new edge between two nodes: it has its recorded shape, completed, and is
    not selected. -/
def newEdge (s : ChartStage α) (spec : Edge) (ends : Rect α × Rect α) : EdgeItem α :=
  let shape := (s.store.edge? spec.key).getD {}
  { edge := spec
    shape := shape.completed ends.1 ends.2
    route := (shape.completed ends.1 ends.2).route ends.1 ends.2 }

/-- The store after a new edge was placed. The edge is recorded only if its
    recorded shape lacked its controls. -/
def storeWithEdge (s : ChartStage α) (spec : Edge) (ends : Rect α × Rect α) : Store α :=
  let shape := (s.store.edge? spec.key).getD {}
  s.store.load.routed { edge := spec, shape, route := shape.route ends.1 ends.2 } ends

section PlaceEdge

variable {s : ChartStage α} {spec : Edge}

/-- A new edge is listed at its nodes, put with its recorded shape, and drawn.
    It is put once before it is routed and once more with its route, and only
    the latter counts. -/
theorem createEdge_eq {ends : Rect α × Rect α} (hends : s.picture.ends? spec = some ends) :
    s.createEdge spec ends.1 ends.2 =
      Stage.draw
        { s with
          picture := (s.picture.joined spec).setEdge spec.key (s.newEdge spec ends)
          store := s.storeWithEdge spec ends }
        ((s.newEdge spec ends).marks s.measure spec.key) := by
  let shape : EdgeShape α := (s.store.edge? spec.key).getD {}
  let e : EdgeItem α := { edge := spec, shape, route := shape.route ends.1 ends.2 }
  let t : ChartStage α :=
    { s with picture := (s.picture.joined spec).setEdge spec.key e, store := s.store.load }
  have hstart : s.createEdge spec ends.1 ends.2 = t.updateEdge spec.key := by
    unfold createEdge
    simp only [Store.edge?_load]
    rfl
  have he : t.picture.edges[spec.key]? = some e := by simp [t]
  have hjoined : (s.picture.joined spec).ends? spec = s.picture.ends? spec :=
    Chart.ends?_congr (Chart.joined_bare? _ _ _) (Chart.joined_bare? _ _ _)
  have htends : t.picture.ends? e.edge = some ends := by
    rw [← hends, ← hjoined]
    rfl
  rw [hstart, updateEdge_eq he htends]
  have hrouted : e.routed ends = s.newEdge spec ends := rfl
  rw [hrouted]
  dsimp only [t]
  rw [Chart.setEdge_setEdge]
  rfl

/-- What placing an edge does: nothing if the edge is there or lacks an end, or
    else it adds it. -/
theorem placeEdge_cases (s : ChartStage α) (spec : Edge) :
    (s.placeEdge spec = s ∧ (spec.key ∈ s.picture.edges ∨ s.picture.ends? spec = none)) ∨
      ∃ ends, spec.key ∉ s.picture.edges ∧ s.picture.ends? spec = some ends ∧
        s.placeEdge spec =
          (Stage.draw
            { s with
              picture := (s.picture.joined spec).setEdge spec.key (s.newEdge spec ends)
              store := s.storeWithEdge spec ends }
            ((s.newEdge spec ends).marks s.measure spec.key)).state := by
  unfold placeEdge
  by_cases hmem : spec.key ∈ s.picture.edges
  · left
    simp [hmem]
  · cases hends : s.picture.ends? spec with
    | none =>
      left
      simp [hmem]
    | some ends =>
      right
      refine ⟨ends, hmem, rfl, ?_⟩
      rw [← createEdge_eq hends]
      simp [hmem]

variable (s spec)

theorem placeEdge_sameSetup : Stage.SameSetup s (s.placeEdge spec) := by
  rcases placeEdge_cases s spec with ⟨heq, -⟩ | ⟨ends, -, -, heq⟩
  · rw [heq]
    exact Stage.SameSetup.refl s
  · rw [heq]
    refine Stage.SameSetup.draw ?_ _
    exact ⟨rfl, rfl, rfl⟩

@[simp] theorem placeEdge_bare? (id : String) :
    (s.placeEdge spec).picture.bare? id = s.picture.bare? id := by
  rcases placeEdge_cases s spec with ⟨heq, -⟩ | ⟨ends, -, -, heq⟩
  · rw [heq]
  · rw [heq]
    exact Chart.joined_bare? s.picture spec id

/-- What is found under a key after an edge was placed. An edge that is there
    stays as it is, even if the flowchart now states another one under that
    key. -/
theorem placeEdge_getElem? (key : String) :
    (s.placeEdge spec).picture.edges[key]? =
      match s.picture.edges[key]? with
      | some e => some e
      | none =>
        if spec.key = key then (s.picture.ends? spec).map fun ends => s.newEdge spec ends
        else none := by
  rcases placeEdge_cases s spec with ⟨heq, hwhy⟩ | ⟨ends, hnot, hends, heq⟩
  · rw [heq]
    cases he : s.picture.edges[key]? with
    | some e => rfl
    | none =>
      dsimp only
      split
      · rename_i hkey
        rcases hwhy with hmem | hnone
        · rw [hkey, Std.ExtTreeMap.mem_iff_isSome_getElem?, he] at hmem
          simp at hmem
        · rw [hnone]
          rfl
      · rfl
  · have hnone : s.picture.edges[spec.key]? = none := Std.ExtTreeMap.getElem?_eq_none hnot
    rw [heq, Stage.draw_picture, Chart.setEdge_getElem?, Chart.joined_edges, hends]
    by_cases hkey : spec.key = key
    · rw [← hkey, hnone, if_pos rfl]
      dsimp only
      rw [if_pos rfl, Option.map_some]
    · rw [if_neg hkey]
      cases s.picture.edges[key]? with
      | some e => rfl
      | none =>
        dsimp only
        rw [if_neg hkey]

/-- Placing an edge is not seen at the records of other edges. -/
theorem placeEdge_edge?_of_ne {key : String} (hne : spec.key ≠ key) :
    (s.placeEdge spec).store.edge? key = s.store.edge? key := by
  rcases placeEdge_cases s spec with ⟨heq, -⟩ | ⟨ends, -, -, heq⟩
  · rw [heq]
  · rw [heq, Stage.draw_store]
    unfold storeWithEdge Store.routed
    dsimp only
    split
    · rw [Store.edge?_updateEdge_of_ne _ hne, Store.edge?_load]
    · rw [Store.edge?_load]

end PlaceEdge

section PlaceEdges

variable (s : ChartStage α) (specs : List Edge)

theorem placeEdges_sameSetup : Stage.SameSetup s (s.placeEdges specs) :=
  Stage.sameSetup_foldl placeEdge_sameSetup specs s

/-- Placing edges changes the nodes in their lists of edges only. -/
theorem placeEdges_bare? (id : String) :
    (s.placeEdges specs).picture.bare? id = s.picture.bare? id := by
  unfold placeEdges
  induction specs generalizing s with
  | nil => rfl
  | cons spec specs ih => rw [List.foldl_cons, ih, placeEdge_bare?]

/-- What is found under a key after some edges with different keys were placed.
    An edge that is there stays as it is, an edge that lacks a node is left out,
    and every other one is added with its recorded shape. With different keys,
    an edge that was placed is not found there by a later one. -/
theorem placeEdges_getElem? {specs : List Edge} (hnodup : (specs.map Edge.key).Nodup) (key : String) :
    (s.placeEdges specs).picture.edges[key]? =
      match s.picture.edges[key]? with
      | some e => some e
      | none => (specs.find? fun e => e.key == key).bind fun spec =>
          (s.picture.ends? spec).map fun ends => s.newEdge spec ends := by
  unfold placeEdges
  induction specs generalizing s with
  | nil => cases he : s.picture.edges[key]? <;> simp [he]
  | cons spec specs ih =>
    rw [List.map_cons, List.nodup_cons] at hnodup
    have hends : ∀ other, (s.placeEdge spec).picture.ends? other = s.picture.ends? other := fun other =>
      Chart.ends?_congr (placeEdge_bare? s spec _) (placeEdge_bare? s spec _)
    rw [List.foldl_cons, ih (s.placeEdge spec) hnodup.2, placeEdge_getElem?]
    cases he : s.picture.edges[key]? with
    | some e => rfl
    | none =>
      by_cases hkey : spec.key = key
      · have hrest : specs.find? (fun e => e.key == key) = none := by
          rw [List.find?_eq_none]
          intro other hother heq
          rw [beq_iff_eq] at heq
          exact hnodup.1 (hkey ▸ heq ▸ List.mem_map_of_mem hother)
        simp only [hkey, hrest, if_pos, List.find?_cons, beq_self_eq_true, Option.bind_some]
        cases s.picture.ends? spec <;> rfl
      · have hfirst : (spec :: specs).find? (fun e => e.key == key) =
            specs.find? fun e => e.key == key := by simp [hkey]
        rw [hfirst]
        simp only [hkey, if_false]
        cases hfound : specs.find? fun e => e.key == key with
        | none => rfl
        | some other =>
          have hother : other.key = key := by simpa using List.find?_some hfound
          have hrecord := placeEdge_edge?_of_ne s spec hkey
          simp only [Option.bind_some, hends, newEdge, hother, hrecord]

end PlaceEdges

end ChartStage

end LiveDiagram
