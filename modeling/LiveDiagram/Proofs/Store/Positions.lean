import LiveDiagram.Store.Basic

namespace LiveDiagram

variable {α : Type} [Scalar α]

namespace Store

variable (s : Store α)

/-- Loading is done once: a store that was accessed stays as it is. -/
@[simp] theorem load_load : s.load.load = s.load := by
  cases hloaded : s.loaded with
  | none => simp [load, hloaded]
  | some p => simp [load, hloaded]

@[simp] theorem positions_load : s.load.positions = s.positions := by
  unfold positions
  rw [load_load]

@[simp] theorem node?_load (id : String) : s.load.node? id = s.node? id := by
  unfold node?
  rw [positions_load]

@[simp] theorem edge?_load (key : String) : s.load.edge? key = s.edge? key := by
  unfold edge?
  rw [positions_load]

@[simp] theorem positions_replace (p : Positions α) : (s.replace p).positions = p :=
  rfl

@[simp] theorem positions_updateEdge (key : String) (u : EdgeUpdate α) :
    (s.updateEdge key u).positions = s.positions.updateEdge key u :=
  rfl

@[simp] theorem positions_setNode (id : String) (r : Rect α) :
    (s.setNode id r).positions = s.positions.setNode id r :=
  rfl

/-- After its first access a store stays loaded, and every change loads it. -/
@[simp] theorem loaded_load : s.load.loaded.isSome := by
  cases hloaded : s.loaded with
  | none => simp [load, hloaded]
  | some p => simp [load, hloaded]

@[simp] theorem loaded_setNode (id : String) (r : Rect α) : (s.setNode id r).loaded.isSome :=
  rfl

@[simp] theorem loaded_updateEdge (key : String) (u : EdgeUpdate α) : (s.updateEdge key u).loaded.isSome :=
  rfl

/-- A store that was accessed loads nothing again, whatever its backend would
    say by now. -/
theorem load_of_loaded {s : Store α} (hs : s.loaded.isSome) : s.load = s := by
  obtain ⟨p, hp⟩ := Option.isSome_iff_exists.mp hs
  rw [load, hp]

/-- What a loaded store records does not depend on where it saves. -/
theorem positions_of_loaded {s : Store α} (hs : s.loaded.isSome) : s.positions = s.loaded.getD {} := by
  rw [positions, load_of_loaded hs]

@[simp] theorem edge?_setNode (id : String) (r : Rect α) (key : String) :
    (s.setNode id r).edge? key = s.edge? key :=
  rfl

@[simp] theorem node?_updateEdge (key : String) (u : EdgeUpdate α) (id : String) :
    (s.updateEdge key u).node? id = s.node? id :=
  rfl

/-- A change of a node is seen there and at no other node, whether or not it
    could be saved. -/
theorem node?_setNode (id other : String) (r : Rect α) :
    (s.setNode id r).node? other = if id = other then some r else s.node? other := by
  rw [node?, positions_setNode, Positions.setNode, Std.ExtTreeMap.getElem?_insert]
  simp [node?]

/-- A change of an edge is merged with what is recorded of it, and is seen at no
    other edge. -/
theorem edge?_updateEdge (key other : String) (u : EdgeUpdate α) :
    (s.updateEdge key u).edge? other =
      if key = other then some (((s.edge? key).getD {}).update u) else s.edge? other := by
  rw [edge?, positions_updateEdge, Positions.updateEdge, Std.ExtTreeMap.getElem?_insert,
    Std.ExtTreeMap.getD_eq_getD_getElem?]
  simp [edge?]

/-- Recording a node is one save, whether or not it is the first access. What is
    saved is all that the store then records. -/
theorem backend_setNode (id : String) (r : Rect α) :
    (s.setNode id r).backend = (s.load.backend.save (s.setNode id r).positions).1 := by
  rw [positions_setNode]
  rfl

/-- Over a memory, recording a node counts as one more save, also when the save
    fails. -/
theorem saves_setNode {m : Memory α} (hm : s.backend = .memory m) (id : String) (r : Rect α) :
    ∃ m', (s.setNode id r).backend = .memory m' ∧ m'.saves = m.saves + 1 := by
  obtain ⟨m₁, hm₁, hsaves⟩ : ∃ m₁, s.load.backend = .memory m₁ ∧ m₁.saves = m.saves := by
    cases hloaded : s.loaded with
    | some p => exact ⟨m, by simp [load, hloaded, hm], rfl⟩
    | none => exact ⟨{ m with loads := m.loads + 1 }, by simp [load, hloaded, hm, Backend.load], rfl⟩
  simp only [setNode, replace, hm₁, Backend.save]
  split
  · exact ⟨_, rfl, by simp [hsaves]⟩
  · exact ⟨_, rfl, by simp [hsaves]⟩

theorem edge?_updateEdge_of_ne {key other : String} (hne : key ≠ other) (u : EdgeUpdate α) :
    (s.updateEdge key u).edge? other = s.edge? other := by
  rw [edge?_updateEdge, if_neg hne]

/-- A new store in memory. -/
abbrev inMemory : Store α :=
  { backend := .memory {} }

theorem node?_inMemory (id : String) : (inMemory : Store α).node? id = none := by
  simp [node?, positions, load, Backend.load]

end Store

end LiveDiagram
