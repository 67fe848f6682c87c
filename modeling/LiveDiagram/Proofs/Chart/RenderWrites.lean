import LiveDiagram.Proofs.Chart.Recorded
import LiveDiagram.Proofs.Chart.Settled

namespace LiveDiagram

variable {α : Type} [Scalar α]

theorem EdgeShape.lacksControls_withControls (e : EdgeShape α) (source target : Rect α) :
    (e.withControls source target).lacksControls = false := by
  simp [withControls, lacksControls]

namespace Store

/-- The store records what another one does, with the control points that curves
    lacked there. -/
structure Completes (s t : Store α) : Prop where
  node? : ∀ id, t.node? id = s.node? id
  edge? : ∀ key, t.edge? key = s.edge? key ∨
    ∃ shape source target, s.edge? key = some shape ∧ shape.lacksControls ∧
      t.edge? key = some (shape.withControls source target)
  loaded : s.loaded.isSome → t.loaded.isSome

namespace Completes

variable {s t u : Store α}

theorem refl (s : Store α) : Completes s s :=
  ⟨fun _ => rfl, fun _ => .inl rfl, id⟩

/-- Completing a store twice is completing it. Once a curve has its control
    points it is not completed again. -/
theorem trans (h : Completes s t) (h' : Completes t u) : Completes s u where
  node? id := (h'.node? id).trans (h.node? id)
  loaded hs := h'.loaded (h.loaded hs)
  edge? key := by
    obtain hsame | ⟨shape, source, target, hs, hlacks, ht⟩ := h.edge? key
    · exact hsame ▸ h'.edge? key
    · obtain hsame' | ⟨shape', _, _, ht', hlacks', _⟩ := h'.edge? key
      · exact .inr ⟨shape, source, target, hs, hlacks, hsame'.trans ht⟩
      · -- what was completed once lacks no control point any more
        obtain rfl : shape.withControls source target = shape' := Option.some.inj (ht.symm.trans ht')
        rw [EdgeShape.lacksControls_withControls] at hlacks'
        cases hlacks'

theorem load (s : Store α) : Completes s s.load :=
  ⟨fun id => s.node?_load id, fun key => .inl (s.edge?_load key), fun _ => s.loaded_load⟩

/-- Routing an edge whose shape is the recorded one records at most the control
    points that it lacked. -/
theorem routed {e : EdgeItem α} (he : e.shape = (s.edge? e.edge.key).getD {}) (ends : Rect α × Rect α) :
    Completes s (s.routed e ends) where
  node? id := node?_routed e ends id
  loaded hs := loaded_routed hs e ends
  edge? key := by
    by_cases hkey : e.edge.key = key
    · subst hkey
      rw [Store.routed]
      split
      · rename_i hlacks
        cases hrecord : s.edge? e.edge.key with
        | none =>
          rw [he, hrecord] at hlacks
          cases hlacks
        | some shape =>
          have hshape : e.shape = shape := by rw [he, hrecord, Option.getD_some]
          refine .inr ⟨shape, ends.1, ends.2, rfl, hshape ▸ hlacks, ?_⟩
          rw [← hshape]
          exact edge?_record (he ▸ e.shape.extends_withControls ends.1 ends.2)
      · exact .inl rfl
    · exact .inl (edge?_routed_of_ne hkey ends)

end Completes

end Store

namespace ChartStage

variable {s t u : ChartStage α}

/-- Nothing was recorded but control points, and no edit was added. -/
structure CompletesRecords (s t : ChartStage α) : Prop where
  store : s.store.Completes t.store
  edits : t.edits = s.edits

namespace CompletesRecords

/-- Two changes that record nothing but control points are one such change. -/
theorem trans (h : CompletesRecords s t) (h' : CompletesRecords t u) : CompletesRecords s u :=
  ⟨h.store.trans h'.store, h'.edits.trans h.edits⟩

theorem of_sameRecords (h : Stage.SameRecords s t) : CompletesRecords s t :=
  ⟨h.store ▸ .refl s.store, h.edits⟩

/-- Changes that are made item by item record nothing but control points, if
    each of them does. -/
theorem foldl {ι : Type} {f : ChartStage α → ι → ChartStage α} (hf : ∀ s x, CompletesRecords s (f s x))
    (items : List ι) (s : ChartStage α) : CompletesRecords s (items.foldl f s) := by
  induction items generalizing s with
  | nil => exact .of_sameRecords (.refl s)
  | cons x items ih => exact (hf s x).trans (ih (f s x))

end CompletesRecords

section PlaceNode

variable (s) (spec : Node) (index : Nat)

/-- Placing a node has the store loaded and records nothing. -/
theorem placeNode_completesRecords : CompletesRecords s (s.placeNode spec index).state := by
  rw [placeNode_eq]
  split
  · exact .of_sameRecords ⟨rfl, rfl⟩
  · exact ⟨.load s.store, rfl⟩

theorem placeNode_shape? (key : String) :
    (s.placeNode spec index).state.shape? key = s.shape? key := by
  rw [shape?, placeNode_edges, shape?]

variable {s}

theorem Recorded.placeNode (hs : s.Recorded) : (s.placeNode spec index).state.Recorded := fun key =>
  (hs key).congr (fun _ h => placeNode_shape? s spec index key ▸ h)
    (by rw [Store.edge?, placeNode_positions, Store.edge?])
    (placeNode_completesRecords s spec index).store.loaded

end PlaceNode

section PlaceEdge

variable (s) (spec : Edge)

/-- Placing an edge records its control points, if its record lacked them. -/
theorem placeEdge_completesRecords : CompletesRecords s (s.placeEdge spec) := by
  rcases placeEdge_cases s spec with ⟨heq, -⟩ | ⟨ends, -, -, heq⟩
  · rw [heq]
    exact .of_sameRecords (.refl s)
  · rw [heq]
    refine ⟨(Store.Completes.load s.store).trans (.routed ?_ ends), rfl⟩
    rw [Store.edge?_load]

variable {s}

/-- Placing an edge keeps the chart complete: a new edge is completed when it is
    routed. -/
theorem placeEdge_complete (hs : s.picture.Complete) : (s.placeEdge spec).picture.Complete := by
  intro key e he
  rw [placeEdge_getElem?] at he
  split at he
  · rename_i old hold
    obtain rfl := Option.some.inj he
    exact hs key old hold
  · split at he
    · obtain ⟨ends, -, rfl⟩ := Option.map_eq_some_iff.mp he
      exact EdgeShape.lacksControls_completed _ _ _
    · cases he

/-- The shapes of edges stay recorded when an edge is placed: a new edge has its
    recorded shape, completed, and is recorded again if something was added. -/
theorem Recorded.placeEdge (hs : s.Recorded) : (s.placeEdge spec).Recorded := by
  rcases placeEdge_cases s spec with ⟨heq, -⟩ | ⟨ends, -, -, heq⟩
  · rw [heq]
    exact hs
  · have hloaded : (s.storeWithEdge spec ends).loaded.isSome := Store.loaded_routed s.store.loaded_load _ ends
    intro key
    by_cases hkey : spec.key = key
    · subst hkey
      intro shape hshape
      rw [heq] at hshape ⊢
      refine ⟨hloaded, ?_⟩
      have hnew : ((s.store.edge? spec.key).getD {}).completed ends.1 ends.2 = shape := by
        simpa [shape?, newEdge] using hshape
      rw [Stage.draw_store, storeWithEdge, Store.edge?_routed, hnew]
      rw [Store.edge?_load]
    · refine (hs key).congr (fun shape h => ?_) (placeEdge_edge?_of_ne s spec hkey)
        (placeEdge_completesRecords s spec).store.loaded
      rw [heq, shape?, Stage.draw_picture, Chart.setEdge_getElem?, if_neg hkey, Chart.joined_edges] at h
      exact h

end PlaceEdge

section Render

variable (s) (d : Flowchart)

omit [Scalar α] in
theorem pruned_quiet : Quiet s (s.pruned d) :=
  Quiet.trans (t := s.set { s.picture with classes := d.classes, direction := d.direction })
    ⟨⟨rfl, rfl⟩, fun _ _ h => h⟩ (Quiet.foldl removeNode_quiet _ _)

theorem trimmed_quiet : Quiet (s.connected d) (s.trimmed d) :=
  Quiet.foldl removeEdge_quiet _ _

/-- Up to the placing of the edges, nothing is recorded but control points. -/
theorem connected_completesRecords : CompletesRecords s (s.connected d) := by
  have hpruned : CompletesRecords s (s.pruned d) := .of_sameRecords (s.pruned_quiet d).toSameRecords
  have hpopulated : CompletesRecords (s.pruned d) (s.populated d) :=
    .foldl (fun t (p : Node × Nat) => placeNode_completesRecords t p.1 p.2) _ _
  have hconnected : CompletesRecords (s.populated d) (s.connected d) :=
    .foldl placeEdge_completesRecords _ _
  exact hpruned.trans (hpopulated.trans hconnected)

variable {s}

/-- The chart is complete when the edges were placed. The induction is on the
    edges that are still to be placed. -/
theorem connected_complete (hs : s.picture.Complete) : (s.connected d).picture.Complete := by
  have hpopulated : (s.populated d).picture.Complete := by
    intro key e he
    rw [populated_edges] at he
    exact (s.pruned_quiet d).complete hs key e he
  have hplaced : ∀ (specs : List Edge) (t : ChartStage α), t.picture.Complete →
      (t.placeEdges specs).picture.Complete := by
    intro specs
    induction specs with
    | nil => exact fun _ ht => ht
    | cons e specs ih => exact fun t ht => ih (t.placeEdge e) (placeEdge_complete e ht)
  exact hplaced _ _ hpopulated

/-- The shapes of all edges are recorded when the edges were placed. -/
theorem Recorded.connected (hs : s.Recorded) : (s.connected d).Recorded := by
  have hnodes : ∀ (specs : List (Node × Nat)) (t : ChartStage α), t.Recorded →
      (specs.foldl (fun t p => (t.placeNode p.1 p.2).state) t).Recorded := by
    intro specs
    induction specs with
    | nil => exact fun _ ht => ht
    | cons p specs ih => exact fun t ht => ih _ (ht.placeNode p.1 p.2)
  have hedges : ∀ (specs : List Edge) (t : ChartStage α), t.Recorded → (t.placeEdges specs).Recorded := by
    intro specs
    induction specs with
    | nil => exact fun _ ht => ht
    | cons e specs ih => exact fun t ht => ih _ (ht.placeEdge e)
  exact hedges _ _ (hnodes _ _ (hs.quiet (s.pruned_quiet d)))

/-- The last passes of a render remove edges and draw edges that lack no control
    point. -/
theorem render_quiet (hs : s.picture.Complete) : Quiet (s.connected d) (s.render d) :=
  (s.trimmed_quiet d).trans
    (updateEdges_quiet ((s.trimmed_quiet d).complete (connected_complete d hs)) _)

/-- A render records nothing but control points, and those only for curves that
    lacked some in their records. -/
theorem render_completesRecords (hs : s.picture.Complete) : CompletesRecords s (s.render d) :=
  (s.connected_completesRecords d).trans (.of_sameRecords (render_quiet d hs).toSameRecords)

/-- After a render every edge on the chart has its recorded shape again. -/
theorem Recorded.render (hs : s.Recorded) (hcomplete : s.picture.Complete) : (s.render d).Recorded :=
  (hs.connected d).quiet (render_quiet d hcomplete)

end Render

end ChartStage

end LiveDiagram
