import LiveDiagram.Proofs.Chart.Stage
import LiveDiagram.Proofs.Store.Positions

namespace LiveDiagram

variable {α : Type} [Scalar α]

namespace ChartStage

/-- Where a new node stands: at its recorded place, or else at the place of that
    index. -/
def initialRect (s : ChartStage α) (id : String) (index : Nat) : Rect α :=
  match s.store.node? id with
  | some r => recordedRect r
  | none => Layout.nodeRect index s.picture.direction

/-- A node as a flowchart states it, on the place that it has or else gets. A
    node that is there keeps its rectangle and whether it is selected. -/
def placedAs (s : ChartStage α) (before : Option (NodeItem α)) (index : Nat) (spec : Node) :
    NodeItem α where
  label := spec.label
  className := spec.className
  style := s.styleFor spec.className
  rect := match before with
    | some n => n.rect
    | none => s.initialRect spec.id index
  edgeKeys := match before with
    | some n => n.edgeKeys
    | none => []
  selected := match before with
    | some n => n.selected
    | none => false

/-- Placing a node puts it as the flowchart states it, and draws it. A new node
    has the store loaded. -/
theorem placeNode_eq (s : ChartStage α) (spec : Node) (index : Nat) :
    s.placeNode spec index =
      Stage.draw
        { s with
          picture := s.picture.setNode spec.id
            (s.placedAs s.picture.nodes[spec.id]? index spec)
          store := if spec.id ∈ s.picture.nodes then s.store else s.store.load }
        ((s.placedAs s.picture.nodes[spec.id]? index spec).marks spec.id) := by
  unfold placeNode
  cases hn : s.picture.nodes[spec.id]? with
  | some n =>
    have hmem : spec.id ∈ s.picture.nodes := by
      simp [Std.ExtTreeMap.mem_iff_isSome_getElem?, hn]
    dsimp only
    rw [if_pos hmem]
    exact set_drawNode s spec.id _
  | none =>
    have hmem : spec.id ∉ s.picture.nodes := by
      simp [Std.ExtTreeMap.mem_iff_isSome_getElem?, hn]
    dsimp only
    rw [if_neg hmem]
    unfold createNode placedAs initialRect
    simp only [Store.node?_load]
    exact set_drawNode { s with store := s.store.load } spec.id _

section PlaceNodes

variable (s : ChartStage α) (spec : Node) (index : Nat)

theorem placeNode_sameSetup : Stage.SameSetup s (s.placeNode spec index).state := by
  rw [placeNode_eq]
  refine Stage.SameSetup.draw ?_ _
  exact ⟨rfl, rfl, rfl⟩

@[simp] theorem placeNode_edges :
    (s.placeNode spec index).state.picture.edges = s.picture.edges := by
  rw [placeNode_eq]
  rfl

@[simp] theorem placeNode_positions :
    (s.placeNode spec index).state.store.positions = s.store.positions := by
  rw [placeNode_eq, Stage.draw_store]
  dsimp only
  split <;> simp

@[simp] theorem placeNode_styleFor :
    (s.placeNode spec index).state.styleFor = s.styleFor := by
  rw [placeNode_eq]
  rfl

@[simp] theorem placeNode_initialRect :
    (s.placeNode spec index).state.initialRect = s.initialRect := by
  funext id i
  unfold initialRect Store.node?
  rw [placeNode_positions, placeNode_eq]
  rfl

/-- Placing a node is seen at that node only. -/
theorem placeNode_bare? (id : String) :
    (s.placeNode spec index).state.picture.bare? id =
      if spec.id = id then some (s.placedAs (s.picture.bare? id) index spec)
      else s.picture.bare? id := by
  rw [placeNode_eq, Stage.draw_picture]
  dsimp only
  rw [Chart.setNode_bare?]
  split
  · rename_i heq
    rw [← heq]
    unfold Chart.bare?
    cases s.picture.nodes[spec.id]? <;> rfl
  · rfl

/-- What is found under an id after some nodes were placed: the first of them
    with that id is the one that a new node has its place from, and the last of
    them is the one that states its label and class. -/
theorem foldl_placeNode_bare? (specs : List (Node × Nat)) (id : String) :
    (specs.foldl (fun s p => (s.placeNode p.1 p.2).state) s).picture.bare? id =
      match specs.find? fun p => p.1.id == id, specs.reverse.find? fun p => p.1.id == id with
      | some first, some last => some (s.placedAs (s.picture.bare? id) first.2 last.1)
      | _, _ => s.picture.bare? id := by
  induction specs generalizing s with
  | nil => rfl
  | cons p specs ih =>
    have hplaced : (s.placeNode p.1 p.2).state.placedAs = s.placedAs := by
      funext before i spec
      simp [placedAs]
    rw [List.foldl_cons, ih, hplaced, placeNode_bare?, List.reverse_cons, List.find?_append]
    by_cases hp : p.1.id = id
    · have hfirst : (p :: specs).find? (fun p => p.1.id == id) = some p := by simp [hp]
      rw [hfirst, if_pos hp]
      cases hrest : specs.find? fun p => p.1.id == id with
      | none =>
        have hlast : specs.reverse.find? (fun p => p.1.id == id) = none := by
          simpa using hrest
        simp [hlast, hp]
      | some first =>
        have hsome : (specs.reverse.find? fun p => p.1.id == id).isSome := by
          rw [List.find?_isSome]
          have hmem := List.mem_of_find?_eq_some hrest
          have hid := List.find?_some hrest
          exact ⟨first, List.mem_reverse.mpr hmem, hid⟩
        obtain ⟨last, hlast⟩ := Option.isSome_iff_exists.mp hsome
        have hid : last.1.id = id := by simpa using List.find?_some hlast
        rw [hlast]
        dsimp only [Option.some_or]
        unfold placedAs
        cases s.picture.bare? id <;> simp [hp, hid]
    · have hfirst : (p :: specs).find? (fun p => p.1.id == id) =
          specs.find? fun p => p.1.id == id := by simp [hp]
      have hlast : ([p] : List (Node × Nat)).find? (fun p => p.1.id == id) = none := by simp [hp]
      rw [hfirst, hlast, if_neg hp, Option.or_none]

end PlaceNodes

end ChartStage

end LiveDiagram
