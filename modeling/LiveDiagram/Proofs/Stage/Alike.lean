import LiveDiagram.Proofs.Stage.Outcome
import LiveDiagram.Proofs.Store.Positions

namespace LiveDiagram

variable {α : Type}

namespace Surface

/-- The surfaces show the same and refuse the same. -/
structure Alike (s t : Surface α) : Prop where
  primitives : t.primitives = s.primitives
  refused : t.refused = s.refused

namespace Alike

variable {s t : Surface α}

theorem put (h : Alike s t) (id : String) (p : Primitive α) : Alike (s.put id p) (t.put id p) where
  primitives := congrArg (·.insert id p) h.primitives
  refused := h.refused

/-- Erasing an id keeps surfaces alike. Whether it changes anything depends on
    the primitives only, and these are the same. -/
theorem erase (h : Alike s t) (id : String) : Alike (s.erase id) (t.erase id) where
  primitives := by
    apply Std.ExtTreeMap.ext_getElem?
    intro name
    rw [erase_getElem?, erase_getElem?, h.primitives]
  refused := by
    rw [erase_refused, erase_refused]
    exact h.refused

theorem foldl_erase (h : Alike s t) (ids : List String) :
    Alike (ids.foldl Surface.erase s) (ids.foldl Surface.erase t) := by
  induction ids generalizing s t with
  | nil => exact h
  | cons id ids ih => exact ih (h.erase id)

/-- Cleared surfaces are alike as soon as they refuse the same, whatever was on
    them. -/
theorem clear (h : t.refused = s.refused) : Alike s.clear t.clear where
  primitives := rfl
  refused := h

/-- Drawing goes as far on the one surface as on the other, and is stopped by
    the same refusal. The induction is on the marks; a refusal looks at the id
    alone. -/
theorem draw (h : Alike s t) (marks : List (Mark α)) :
    Alike (s.draw marks).1 (t.draw marks).1 ∧ (t.draw marks).2 = (s.draw marks).2 := by
  induction marks generalizing s t with
  | nil => exact ⟨h, rfl⟩
  | cons m marks ih =>
    cases m with
    | put id p =>
      unfold Surface.draw
      rw [h.refused]
      split
      · exact ⟨h, rfl⟩
      · exact ih (h.put id p)
    | erase id => exact ih (h.erase id)

end Alike

end Surface

variable {π ρ : Type} [Scalar α]

namespace Stage

/-- The stages cannot be told apart by what is on them, what is recorded, and
    what operations do next. Where the positions are saved, which edits were
    made and how often the surface has changed may differ: no operation that
    draws or records looks at these. -/
structure Alike (s t : Stage π α) : Prop where
  picture : t.picture = s.picture
  surface : Surface.Alike s.surface t.surface
  positions : t.store.positions = s.store.positions
  settings : t.settings = s.settings
  measure : t.measure = s.measure

namespace Alike

variable {s t : Stage π α}

theorem node? (h : Alike s t) (id : String) : t.store.node? id = s.store.node? id := by
  rw [Store.node?, h.positions, Store.node?]

theorem edge? (h : Alike s t) (key : String) : t.store.edge? key = s.store.edge? key := by
  rw [Store.edge?, h.positions, Store.edge?]

/-- Loading finds the same positions on both: what is loaded is what a reader
    already sees. -/
theorem positions_load (h : Alike s t) : t.store.load.positions = s.store.load.positions := by
  rw [Store.positions_load, h.positions, Store.positions_load]

theorem eraseParts (h : Alike s t) (ids : List String) : Alike (s.eraseParts ids) (t.eraseParts ids) where
  picture := h.picture
  surface := h.surface.foldl_erase ids
  positions := h.positions
  settings := h.settings
  measure := h.measure

/-- The same picture keeps stages alike, also one of another kind. -/
theorem withPicture (h : Alike s t) (picture : ρ) :
    Alike (s.withPicture picture) (t.withPicture picture) where
  picture := rfl
  surface := h.surface
  positions := h.positions
  settings := h.settings
  measure := h.measure

/-- Clearing leaves no more to be alike than what the surfaces refuse. -/
theorem clearSurface (h : Alike s t) : Alike s.clearSurface t.clearSurface where
  picture := h.picture
  surface := .clear h.surface.refused
  positions := h.positions
  settings := h.settings
  measure := h.measure

/-- The same change of the picture, with changes of the stores that record the
    same. How often the stores have saved is not compared. -/
theorem update (h : Alike s t) {picture picture' : π} (hpicture : picture' = picture)
    {store store' : Store α} (hstore : store'.positions = store.positions) :
    Alike { s with picture, store } { t with picture := picture', store := store' } where
  picture := hpicture
  surface := h.surface
  positions := hstore
  settings := h.settings
  measure := h.measure

theorem mapPicture (h : Alike s t) (f : π → π) :
    Alike { s with picture := f s.picture } { t with picture := f t.picture } :=
  h.update (congrArg f h.picture) h.positions

/-- What every step of a fold does alike the fold does alike. -/
theorem foldl {ι : Type} {f : Stage π α → ι → Stage π α}
    (hf : ∀ item s t, Alike s t → Alike (f s item) (f t item)) (h : Alike s t) (items : List ι) :
    Alike (items.foldl f s) (items.foldl f t) := by
  induction items generalizing s t with
  | nil => exact h
  | cons item items ih => exact ih (hf item s t h)

end Alike

end Stage

namespace Outcome

/-- The outcomes have reached stages that are alike, and the same stopped
    them. -/
structure Alike (o o' : Outcome (Stage π α)) : Prop where
  state : Stage.Alike o.state o'.state
  refusal : o'.refusal = o.refusal

theorem Alike.done {s t : Stage π α} (h : Stage.Alike s t) : Alike (.done s) (.done t) :=
  ⟨h, rfl⟩

/-- Operations that do alike on stages that are alike do so one after the other.
    The first stops both or neither, since it has the same refusal on both. -/
theorem Alike.andThen {o o' : Outcome (Stage π α)} {f : Stage π α → Outcome (Stage π α)} (h : Alike o o')
    (hf : ∀ s t, Stage.Alike s t → Alike (f s) (f t)) : Alike (o.andThen f) (o'.andThen f) := by
  unfold Outcome.andThen
  rw [h.refusal]
  split
  · exact hf _ _ h.state
  · exact h

end Outcome

/-- Drawing the same marks on stages that are alike has outcomes that are
    alike. -/
theorem Stage.Alike.draw {s t : Stage π α} (h : Alike s t) {marks marks' : List (Mark α)}
    (hmarks : marks' = marks) : Outcome.Alike (s.draw marks) (t.draw marks') := by
  obtain ⟨hsurface, hrefusal⟩ := h.surface.draw marks
  subst hmarks
  exact ⟨⟨h.picture, hsurface, h.positions, h.settings, h.measure⟩, hrefusal⟩

end LiveDiagram
