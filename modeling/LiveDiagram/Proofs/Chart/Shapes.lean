import LiveDiagram.Proofs.Chart.Stage
import LiveDiagram.Proofs.Store.Positions

namespace LiveDiagram

variable {α : Type}

namespace EdgeShape

variable {e old : EdgeShape α}

/-- The shape has all the points that another one has, where it may have them
    elsewhere. -/
structure Extends (e old : EdgeShape α) : Prop where
  startOffset : old.startOffset.isSome → e.startOffset.isSome
  endOffset : old.endOffset.isSome → e.endOffset.isSome
  control1 : old.control1.isSome → e.control1.isSome
  control2 : old.control2.isSome → e.control2.isSome

namespace Extends

theorem refl (e : EdgeShape α) : e.Extends e :=
  ⟨id, id, id, id⟩

theorem trans {mid : EdgeShape α} (h : e.Extends mid) (h' : mid.Extends old) : e.Extends old where
  startOffset ho := h.startOffset (h'.startOffset ho)
  endOffset ho := h.endOffset (h'.endOffset ho)
  control1 ho := h.control1 (h'.control1 ho)
  control2 ho := h.control2 (h'.control2 ho)

/-- A shape with all the points of the record takes its place. A record can be
    given a point but cannot lose one, so a point that the shape lacks would
    stay. -/
theorem update_toUpdate (h : e.Extends old) : old.update e.toUpdate = e := by
  have hpoint : ∀ {new old : Option (Point α)}, (old.isSome → new.isSome) → (new <|> old) = new := by
    intro new old hsome
    cases new with
    | some p => rfl
    | none =>
      cases old with
      | none => rfl
      | some p => simp at hsome
  have hstart := hpoint h.startOffset
  have hend := hpoint h.endOffset
  have hcontrol1 := hpoint h.control1
  have hcontrol2 := hpoint h.control2
  simp only [update, toUpdate, hstart, hend, hcontrol1, hcontrol2, Option.getD_some]

end Extends

variable [Scalar α]

theorem extends_withControls (e : EdgeShape α) (source target : Rect α) :
    (e.withControls source target).Extends e :=
  ⟨id, id, fun _ => rfl, fun _ => rfl⟩

omit [Scalar α] in
theorem controls_of_curved {e : EdgeShape α} (he : e.lacksControls = false) (hcurved : e.curved) :
    e.control1.isSome ∧ e.control2.isSome := by
  simpa [lacksControls, hcurved, Option.isSome_iff_ne_none] using he

end EdgeShape

variable [Scalar α]

namespace Store

variable {s : Store α}

/-- The record of an edge is the shape that was recorded last, if it has all the
    points of the record. This is so for every change that is made to the shape
    of an edge. -/
theorem edge?_record {key : String} {shape : EdgeShape α}
    (hshape : shape.Extends ((s.edge? key).getD {})) :
    (s.updateEdge key shape.toUpdate).edge? key = some shape := by
  rw [edge?_updateEdge, if_pos rfl, hshape.update_toUpdate]

/-- Routing an edge over a loaded store leaves it loaded. -/
theorem loaded_routed (hs : s.loaded.isSome) (e : EdgeItem α) (ends : Rect α × Rect α) :
    (s.routed e ends).loaded.isSome := by
  rw [routed]
  split
  · exact loaded_updateEdge s _ _
  · exact hs

@[simp] theorem node?_routed (e : EdgeItem α) (ends : Rect α × Rect α) (id : String) :
    (s.routed e ends).node? id = s.node? id := by
  rw [routed]
  split
  · exact node?_updateEdge s _ _ id
  · rfl

/-- Routing an edge is not seen at the records of other edges. -/
theorem edge?_routed_of_ne {e : EdgeItem α} {key : String} (hne : e.edge.key ≠ key)
    (ends : Rect α × Rect α) : (s.routed e ends).edge? key = s.edge? key := by
  rw [routed]
  split
  · exact edge?_updateEdge_of_ne s hne _
  · rfl

/-- An edge whose shape is the recorded one keeps that shape recorded when it is
    routed. -/
theorem edge?_routed {e : EdgeItem α} (he : e.shape = (s.edge? e.edge.key).getD {})
    (ends : Rect α × Rect α) :
    ((s.routed e ends).edge? e.edge.key).getD {} = e.shape.completed ends.1 ends.2 := by
  rw [routed, EdgeShape.completed]
  split
  · rw [edge?_record (he ▸ EdgeShape.extends_withControls e.shape ends.1 ends.2), Option.getD_some]
  · exact he.symm

theorem routed_of_complete {e : EdgeItem α} (he : e.shape.lacksControls = false)
    (ends : Rect α × Rect α) : s.routed e ends = s := by
  simp [routed, he]

end Store

end LiveDiagram
