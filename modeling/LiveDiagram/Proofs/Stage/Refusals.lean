import LiveDiagram.Proofs.Stage.Outcome

namespace LiveDiagram

variable {α : Type} {torn : String → Prop}

/-- Either all of the ids are torn or none is. Drawing stops at the first id
    that is refused, so surfaces that refuse different ids come to differ; they
    differ at torn ids only as long as each drawing keeps to one of the two
    sides. -/
def TornTogether (torn : String → Prop) (ids : List String) : Prop :=
  (∀ name ∈ ids, ¬ torn name) ∨ ∀ name ∈ ids, torn name

namespace Surface

/-- Under ids that are not torn the surfaces show the same, and they refuse the
    same of these ids. -/
structure AgreeBut (torn : String → Prop) (s t : Surface α) : Prop where
  refused : ∀ name, ¬ torn name → (name ∈ t.refused ↔ name ∈ s.refused)
  primitives : ∀ name, ¬ torn name → t.primitives[name]? = s.primitives[name]?

namespace AgreeBut

variable {s t : Surface α}

/-- The same primitive under the same id keeps surfaces agreeing, be the id torn
    or not. -/
theorem put (h : AgreeBut torn s t) (id : String) (p : Primitive α) :
    AgreeBut torn (s.put id p) (t.put id p) where
  refused := h.refused
  primitives name hname := by
    rw [put_getElem?, put_getElem?, h.primitives name hname]

/-- Erasing the same id keeps surfaces agreeing, be the id torn or not. -/
theorem erase (h : AgreeBut torn s t) (id : String) : AgreeBut torn (s.erase id) (t.erase id) where
  refused name hname := by
    rw [erase_refused, erase_refused]
    exact h.refused name hname
  primitives name hname := by
    rw [erase_getElem?, erase_getElem?, h.primitives name hname]

theorem foldl_erase (h : AgreeBut torn s t) (ids : List String) :
    AgreeBut torn (ids.foldl Surface.erase s) (ids.foldl Surface.erase t) := by
  induction ids generalizing s t with
  | nil => exact h
  | cons id ids ih => exact ih (h.erase id)

theorem clear (h : AgreeBut torn s t) : AgreeBut torn s.clear t.clear where
  refused := h.refused
  primitives _ _ := rfl

/-- Both surfaces refuse the same of ids that are not torn, so drawing there
    goes as far on one as on the other. The induction is on the marks. -/
theorem draw_of_not_torn (h : AgreeBut torn s t) {marks : List (Mark α)}
    (hmarks : ∀ name ∈ Mark.ids marks, ¬ torn name) :
    AgreeBut torn (s.draw marks).1 (t.draw marks).1 := by
  induction marks generalizing s t with
  | nil => exact h
  | cons m marks ih =>
    rw [Mark.ids_cons, List.forall_mem_cons] at hmarks
    cases m with
    | put id p =>
      have halike : t.refused.contains id = s.refused.contains id := by
        rw [Bool.eq_iff_iff, List.contains_iff_mem, List.contains_iff_mem]
        exact h.refused id hmarks.1
      unfold Surface.draw
      rw [halike]
      split
      · exact h
      · exact ih (h.put id p) hmarks.2
    | erase id => exact ih (h.erase id) hmarks.2

/-- What is drawn under torn ids is not seen at the other ones, however far it
    is drawn on either surface. -/
theorem draw_of_torn (h : AgreeBut torn s t) {marks : List (Mark α)}
    (hmarks : ∀ name ∈ Mark.ids marks, torn name) :
    AgreeBut torn (s.draw marks).1 (t.draw marks).1 where
  refused name hname := by
    rw [draw_refused, draw_refused]
    exact h.refused name hname
  primitives name hname := by
    have hother : name ∉ Mark.ids marks := fun hmem => hname (hmarks name hmem)
    rw [draw_getElem?_of_not_mem hother, draw_getElem?_of_not_mem hother]
    exact h.primitives name hname

/-- A drawing that uses either torn ids alone or none of them keeps surfaces
    agreeing, since it falls under one of the two cases above. -/
theorem draw (h : AgreeBut torn s t) {marks : List (Mark α)}
    (hmarks : TornTogether torn (Mark.ids marks)) :
    AgreeBut torn (s.draw marks).1 (t.draw marks).1 := by
  rcases hmarks with hwhole | htorn
  · exact h.draw_of_not_torn hwhole
  · exact h.draw_of_torn htorn

end AgreeBut

end Surface

namespace Stage

variable {π ρ : Type}

/-- The stages have all in common but their surfaces, and these agree under ids
    that are not torn. -/
structure AgreeBut (torn : String → Prop) (s t : Stage π α) : Prop where
  rest : ∃ surface, t = { s with surface }
  surface : Surface.AgreeBut torn s.surface t.surface

namespace AgreeBut

variable {s t : Stage π α}

/-- Drawing under ids that are torn together changes nothing else on the two
    stages, which therefore keep all but their surfaces in common. -/
theorem draw (h : AgreeBut torn s t) {marks : List (Mark α)}
    (hmarks : TornTogether torn (Mark.ids marks)) :
    AgreeBut torn (s.draw marks).state (t.draw marks).state where
  rest := by
    obtain ⟨⟨surface, rfl⟩, -⟩ := h
    exact ⟨_, rfl⟩
  surface := h.surface.draw hmarks

theorem eraseParts (h : AgreeBut torn s t) (ids : List String) :
    AgreeBut torn (s.eraseParts ids) (t.eraseParts ids) where
  rest := by
    obtain ⟨⟨surface, rfl⟩, -⟩ := h
    exact ⟨_, rfl⟩
  surface := h.surface.foldl_erase ids

theorem clearSurface (h : AgreeBut torn s t) : AgreeBut torn s.clearSurface t.clearSurface where
  rest := by
    obtain ⟨⟨surface, rfl⟩, -⟩ := h
    exact ⟨_, rfl⟩
  surface := h.surface.clear

theorem withPicture (h : AgreeBut torn s t) (picture : ρ) :
    AgreeBut torn (s.withPicture picture) (t.withPicture picture) where
  rest := by
    obtain ⟨⟨surface, rfl⟩, -⟩ := h
    exact ⟨surface, rfl⟩
  surface := h.surface

theorem picture (h : AgreeBut torn s t) : t.picture = s.picture := by
  obtain ⟨⟨surface, rfl⟩, -⟩ := h
  rfl

theorem store (h : AgreeBut torn s t) : t.store = s.store := by
  obtain ⟨⟨surface, rfl⟩, -⟩ := h
  rfl

theorem mapPicture (h : AgreeBut torn s t) (f : π → π) :
    AgreeBut torn { s with picture := f s.picture } { t with picture := f t.picture } where
  rest := by
    obtain ⟨⟨surface, rfl⟩, -⟩ := h
    exact ⟨surface, rfl⟩
  surface := h.surface

/-- What every step of a fold does alike the fold does alike. -/
theorem foldl {ι : Type} {f : Stage π α → ι → Stage π α} {items : List ι}
    (hf : ∀ item ∈ items, ∀ s t, AgreeBut torn s t → AgreeBut torn (f s item) (f t item))
    (h : AgreeBut torn s t) : AgreeBut torn (items.foldl f s) (items.foldl f t) := by
  induction items generalizing s t with
  | nil => exact h
  | cons item items ih =>
    refine ih (fun other hother => hf other (List.mem_cons_of_mem _ hother)) ?_
    exact hf item List.mem_cons_self s t h

end AgreeBut

end Stage

end LiveDiagram
