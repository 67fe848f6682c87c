import LiveDiagram.Proofs.Surface.Drawing

namespace LiveDiagram

/-- What every step of a fold leaves as it is stays as it is. The view says
    which part of the state is meant. -/
theorem foldl_view {σ ι β : Type} (view : σ → β) {f : σ → ι → σ} (hf : ∀ s x, view (f s x) = view s)
    (items : List ι) (s : σ) : view (items.foldl f s) = view s := by
  induction items generalizing s with
  | nil => rfl
  | cons x items ih => exact (ih (f s x)).trans (hf s x)

namespace Outcome

variable {σ τ ι : Type} {P : σ → Prop}

@[simp] theorem done_state (s : σ) : (done s).state = s :=
  rfl

@[simp] theorem done_refusal (s : σ) : (done s).refusal = none :=
  rfl

@[simp] theorem map_state (f : σ → τ) (o : Outcome σ) : (o.map f).state = f o.state :=
  rfl

@[simp] theorem map_refusal (f : σ → τ) (o : Outcome σ) : (o.map f).refusal = o.refusal :=
  rfl

theorem andThen_of_refusal_eq_none {o : Outcome σ} (ho : o.refusal = none) (f : σ → Outcome σ) :
    o.andThen f = f o.state := by
  unfold andThen
  rw [ho]

/-- What holds where an operation stops holds after it and another one that
    keeps it. The state reached is that of one of the two, whether or not a
    refusal stopped the first. -/
theorem andThen_state {o : Outcome σ} {f : σ → Outcome σ} (ho : P o.state)
    (hf : ∀ s, P s → P (f s).state) : P (o.andThen f).state := by
  unfold andThen
  split
  · exact hf _ ho
  · exact ho

/-- What each step keeps is kept along a chain of operations, wherever the chain
    stops. -/
private theorem foldl_andThen_state {f : ι → σ → Outcome σ} {items : List ι}
    (hf : ∀ item ∈ items, ∀ s, P s → P (f item s).state) {o : Outcome σ} (ho : P o.state) :
    P (items.foldl (fun o item => o.andThen (f item)) o).state := by
  induction items generalizing o with
  | nil => exact ho
  | cons item items ih =>
    rw [List.foldl_cons]
    refine ih (fun other hother => hf other (List.mem_cons_of_mem _ hother)) ?_
    exact andThen_state ho (hf item List.mem_cons_self)

/-- What the operation keeps for each item is kept when it is done for one item
    after the other. It is enough that it is kept for the items at hand. -/
theorem forEach_state {f : ι → σ → Outcome σ} {items : List ι}
    (hf : ∀ item ∈ items, ∀ s, P s → P (f item s).state) {s : σ} (hs : P s) :
    P (forEach items f s).state :=
  foldl_andThen_state hf hs

/-- What is done for one item after the other takes each item off the pending
    ones, and nothing stops it. The condition speaks of the items that are still
    to come, so it can say what is not done yet. -/
theorem forEach_pending {P : List ι → σ → Prop} {f : ι → σ → Outcome σ}
    (hf : ∀ item items s, P (item :: items) s → (f item s).refusal = none ∧ P items (f item s).state)
    {items : List ι} {s : σ} (hs : P items s) :
    (forEach items f s).refusal = none ∧ P [] (forEach items f s).state := by
  induction items generalizing s with
  | nil => exact ⟨rfl, hs⟩
  | cons item items ih =>
    obtain ⟨hrefusal, hrest⟩ := hf item items s hs
    have hcons : forEach (item :: items) f s = forEach items f (f item s).state := by
      have hdone : (done s).andThen (f item) = done (f item s).state := by
        rw [andThen_of_refusal_eq_none rfl]
        exact congrArg (Outcome.mk (f item s).state) hrefusal
      unfold forEach
      rw [List.foldl_cons, hdone]
    rw [hcons]
    exact ih hrest

/-- What nothing stops for any item is stopped for none of them, as long as each
    keeps what the next one needs. -/
theorem forEach_unstopped {f : ι → σ → Outcome σ}
    (hf : ∀ item s, P s → (f item s).refusal = none ∧ P (f item s).state) {items : List ι} {s : σ}
    (hs : P s) :
    (forEach items f s).refusal = none ∧ P (forEach items f s).state :=
  forEach_pending (P := fun _ => P) (fun item _ s => hf item s) hs

/-- An operation that nothing stops, and after it another one, which may rely on
    what the first has brought about. -/
theorem andThen_unstopped {Q : σ → Prop} {o : Outcome σ} {f : σ → Outcome σ}
    (ho : o.refusal = none ∧ P o.state)
    (hf : ∀ s, P s → (f s).refusal = none ∧ Q (f s).state) :
    (o.andThen f).refusal = none ∧ Q (o.andThen f).state := by
  rw [andThen_of_refusal_eq_none ho.1]
  exact hf o.state ho.2

end Outcome

namespace Stage

variable {π α : Type}

/-- The stage is set up like another one: with the same settings and the same
    way to measure texts, and with a surface that refuses the same. -/
structure SameSetup (s t : Stage π α) : Prop where
  settings : t.settings = s.settings
  measure : t.measure = s.measure
  refused : t.surface.refused = s.surface.refused

namespace SameSetup

variable {s t u : Stage π α}

theorem refl (s : Stage π α) : SameSetup s s :=
  ⟨rfl, rfl, rfl⟩

theorem trans (h : SameSetup s t) (h' : SameSetup t u) : SameSetup s u :=
  ⟨h'.settings.trans h.settings, h'.measure.trans h.measure, h'.refused.trans h.refused⟩

/-- What a surface accepts is part of the setup, so an accepting surface stays
    one. -/
theorem accepts (h : SameSetup s t) (hs : s.surface.Accepts) : t.surface.Accepts :=
  h.refused.trans hs

/-- Drawing changes what is on the surface and leaves the setup as it is,
    stopped or not. -/
theorem draw (h : SameSetup s t) (marks : List (Mark α)) : SameSetup s (t.draw marks).state where
  settings := h.settings
  measure := h.measure
  refused := (t.surface.draw_refused marks).trans h.refused

theorem eraseParts (h : SameSetup s t) (ids : List String) : SameSetup s (t.eraseParts ids) where
  settings := h.settings
  measure := h.measure
  refused := (t.surface.foldl_erase_refused ids).trans h.refused

end SameSetup

/-- What every step of a fold keeps of the setup is kept by the fold. -/
theorem sameSetup_foldl {ι : Type} {f : Stage π α → ι → Stage π α}
    (hf : ∀ s item, SameSetup s (f s item)) (items : List ι) (s : Stage π α) :
    SameSetup s (items.foldl f s) := by
  induction items generalizing s with
  | nil => exact SameSetup.refl s
  | cons item items ih => exact (hf s item).trans (ih (f s item))

end Stage

end LiveDiagram
