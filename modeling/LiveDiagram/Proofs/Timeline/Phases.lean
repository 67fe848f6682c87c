import LiveDiagram.Proofs.Timeline.Stage

namespace LiveDiagram

variable {α : Type}

namespace TimelineStage

/-- Apart from messages and notes the stages are the same: the same participants
    but for their lists, the same title, the same store and the same setup. -/
structure SameFrame (s t : TimelineStage α) : Prop where
  setup : Stage.SameSetup s t
  bare : ∀ id, t.picture.bare? id = s.picture.bare? id
  title : t.picture.title = s.picture.title
  store : t.store = s.store

namespace SameFrame

variable {s t u : TimelineStage α}

theorem refl (s : TimelineStage α) : SameFrame s s :=
  ⟨.refl s, fun _ => rfl, rfl, rfl⟩

theorem trans (h : SameFrame s t) (h' : SameFrame t u) : SameFrame s u :=
  ⟨h.setup.trans h'.setup, fun id => (h'.bare id).trans (h.bare id), h'.title.trans h.title,
    h'.store.trans h.store⟩

/-- What every step of a fold keeps of the frame is kept by the fold. -/
theorem foldl {ι : Type} {f : TimelineStage α → ι → TimelineStage α}
    (hf : ∀ s x, SameFrame s (f s x)) (items : List ι) (s : TimelineStage α) :
    SameFrame s (items.foldl f s) := by
  induction items generalizing s with
  | nil => exact refl s
  | cons x items ih => exact (hf s x).trans (ih (f s x))

end SameFrame

end TimelineStage

open TimelineStage

/-- How items of one kind are put and removed by key, the items of that kind
    being found with `lookup`. An item is put with a value and with marks that
    do not depend on items with other keys. Messages and notes are rendered in
    this way: the items that the diagram has are put one after the other, and
    then those are removed that it does not have. -/
structure Phase (α ι V : Type) where
  lookup : TimelineStage α → String → Option V
  key : ι → String
  value : TimelineStage α → ι → V
  marks : TimelineStage α → ι → List (Mark α)
  partIds : String → List String
  put : TimelineStage α → ι → TimelineStage α
  remove : TimelineStage α → String → TimelineStage α
  ids_marks : ∀ s x, Mark.ids (marks s x) = partIds (key x)
  put_frame : ∀ s x, SameFrame s (put s x)
  put_lookup : ∀ s x k, lookup (put s x) k = if key x = k then some (value s x) else lookup s k
  put_found : ∀ s x name, s.surface.Accepts →
    (put s x).surface.primitives[name]? = Mark.effect (marks s x) name s.surface.primitives[name]?
  put_value : ∀ s x y, key x ≠ key y → value (put s x) y = value s y
  put_marks : ∀ s x y, key x ≠ key y → marks (put s x) y = marks s y
  remove_frame : ∀ s k, SameFrame s (remove s k)
  remove_lookup : ∀ s k other, lookup (remove s k) other = if k = other then none else lookup s other
  remove_found : ∀ s k name, (remove s k).surface.primitives[name]? =
    if (lookup s k).isSome ∧ name ∈ partIds k then none else s.surface.primitives[name]?

namespace Phase

variable {ι V : Type} (p : Phase α ι V)

/-- The id is that of a part of something on the timeline that none of the items
    has the key of. -/
def Stale (s : TimelineStage α) (items : List ι) (name : String) : Prop :=
  ∃ k, (p.lookup s k).isSome ∧ k ∉ items.map p.key ∧ name ∈ p.partIds k

section Putting

variable {items : List ι}

/-- Putting items is not seen under other keys than theirs. -/
theorem putAll_lookup_of_not_mem (s : TimelineStage α) {k : String} (hk : k ∉ items.map p.key) :
    p.lookup (items.foldl p.put s) k = p.lookup s k := by
  induction items generalizing s with
  | nil => rfl
  | cons x items ih =>
    rw [List.map_cons, List.mem_cons, not_or] at hk
    rw [List.foldl_cons, ih _ hk.2, p.put_lookup, if_neg (Ne.symm hk.1)]

/-- Among items with different keys each is put with the value that it has
    before, since an item with another key does not change it. -/
theorem putAll_lookup_of_mem (s : TimelineStage α) (hnodup : (items.map p.key).Nodup) {x : ι}
    (hx : x ∈ items) : p.lookup (items.foldl p.put s) (p.key x) = some (p.value s x) := by
  induction items generalizing s with
  | nil => simp at hx
  | cons first items ih =>
    rw [List.map_cons, List.nodup_cons] at hnodup
    rw [List.foldl_cons]
    rcases List.mem_cons.mp hx with rfl | hrest
    · rw [p.putAll_lookup_of_not_mem _ hnodup.1, p.put_lookup, if_pos rfl]
    · have hne : p.key first ≠ p.key x := by
        intro heq
        exact hnodup.1 (heq ▸ List.mem_map_of_mem hrest)
      rw [ih _ hnodup.2 hrest, p.put_value s first x hne]

/-- Items with different keys leave the marks that each of them has before. The
    induction is on the items: the later ones have other keys, so putting the
    first one does not change their marks. -/
theorem putAll_found {s : TimelineStage α} (haccepts : s.surface.Accepts)
    (hnodup : (items.map p.key).Nodup) (name : String) :
    (items.foldl p.put s).surface.primitives[name]? =
      Mark.effect (items.flatMap (p.marks s)) name s.surface.primitives[name]? := by
  induction items generalizing s with
  | nil => rfl
  | cons first items ih =>
    rw [List.map_cons, List.nodup_cons] at hnodup
    have hmarks : items.flatMap (p.marks (p.put s first)) = items.flatMap (p.marks s) := by
      refine congrArg List.flatten (List.map_congr_left fun x hx => ?_)
      exact p.put_marks s first x fun heq => hnodup.1 (heq ▸ List.mem_map_of_mem hx)
    rw [List.foldl_cons, ih ((p.put_frame s first).setup.accepts haccepts) hnodup.2, hmarks,
      p.put_found s first name haccepts, List.flatMap_cons, Mark.effect_append]

end Putting

theorem removeAll_lookup (s : TimelineStage α) (keys : List String) (k : String) :
    p.lookup (keys.foldl p.remove s) k = if k ∈ keys then none else p.lookup s k := by
  induction keys generalizing s with
  | nil => simp
  | cons first keys ih =>
    rw [List.foldl_cons, ih, p.remove_lookup]
    grind

/-- Where nothing is found, removing leaves nothing to be found. -/
theorem removeAll_found_eq_none {s : TimelineStage α} {name : String}
    (hnone : s.surface.primitives[name]? = none) (keys : List String) :
    (keys.foldl p.remove s).surface.primitives[name]? = none := by
  induction keys generalizing s with
  | nil => exact hnone
  | cons first keys ih =>
    refine ih ?_
    rw [p.remove_found]
    split
    · rfl
    · exact hnone

/-- Nothing is found under the ids of what is removed, whatever else has parts
    with these ids. -/
theorem removeAll_found_of_mem (s : TimelineStage α) {keys : List String} {k name : String}
    (hk : k ∈ keys) (hthere : (p.lookup s k).isSome) (hname : name ∈ p.partIds k) :
    (keys.foldl p.remove s).surface.primitives[name]? = none := by
  induction keys generalizing s with
  | nil => simp at hk
  | cons first keys ih =>
    rw [List.foldl_cons]
    by_cases hfirst : first = k
    · refine p.removeAll_found_eq_none ?_ keys
      rw [p.remove_found, hfirst, if_pos ⟨hthere, hname⟩]
    · refine ih (p.remove s first) ((List.mem_cons.mp hk).resolve_left (Ne.symm hfirst)) ?_
      rw [p.remove_lookup, if_neg hfirst]
      exact hthere

/-- What is not part of anything removed stays on the surface. -/
theorem removeAll_found_of_not_mem (s : TimelineStage α) {keys : List String} {name : String}
    (hname : ∀ k ∈ keys, (p.lookup s k).isSome → name ∉ p.partIds k) :
    (keys.foldl p.remove s).surface.primitives[name]? = s.surface.primitives[name]? := by
  induction keys generalizing s with
  | nil => rfl
  | cons first keys ih =>
    have hfirst : ¬((p.lookup s first).isSome ∧ name ∈ p.partIds first) := by
      rintro ⟨hthere, hpart⟩
      exact hname first List.mem_cons_self hthere hpart
    rw [List.foldl_cons, ih, p.remove_found, if_neg hfirst]
    intro k hk hthere
    rw [p.remove_lookup] at hthere
    split at hthere
    · cases hthere
    · exact hname k (List.mem_cons_of_mem _ hk) hthere

/-- What a phase with some items leaves of a stage: it has the items and nothing
    else of that kind, and what is stale is not found on the surface, even under
    ids that are those of the items too. -/
structure Ran (s : TimelineStage α) (items : List ι) (t : TimelineStage α) : Prop where
  frame : SameFrame s t
  lookup_of_mem : ∀ x ∈ items, p.lookup t (p.key x) = some (p.value s x)
  lookup_of_not_mem : ∀ k, k ∉ items.map p.key → p.lookup t k = none
  found_of_stale : ∀ name, p.Stale s items name → t.surface.primitives[name]? = none
  found_of_not_stale : ∀ name, ¬p.Stale s items name → t.surface.primitives[name]? =
    Mark.effect (items.flatMap (p.marks s)) name s.surface.primitives[name]?

/-- The phase: items with different keys are put, and then whatever the timeline
    has beside them is removed. The stale keys are given in any order. -/
theorem ran {s : TimelineStage α} (haccepts : s.surface.Accepts) {items : List ι}
    (hnodup : (items.map p.key).Nodup) {stale : List String}
    (hstale : ∀ k, k ∈ stale ↔
      (p.lookup (items.foldl p.put s) k).isSome ∧ k ∉ items.map p.key) :
    p.Ran s items (stale.foldl p.remove (items.foldl p.put s)) where
  frame := (SameFrame.foldl p.put_frame items s).trans (SameFrame.foldl p.remove_frame stale _)
  lookup_of_mem x hx := by
    have hkept : p.key x ∉ stale := fun hmem => ((hstale _).mp hmem).2 (List.mem_map_of_mem hx)
    rw [removeAll_lookup, if_neg hkept, p.putAll_lookup_of_mem s hnodup hx]
  lookup_of_not_mem k hk := by
    rw [removeAll_lookup]
    split
    · rfl
    · rename_i hkept
      cases hthere : p.lookup (items.foldl p.put s) k with
      | none => rfl
      | some v => exact absurd ((hstale k).mpr ⟨by simp [hthere], hk⟩) hkept
  found_of_stale name hname := by
    obtain ⟨k, hthere, hk, hpart⟩ := hname
    rw [← p.putAll_lookup_of_not_mem s hk] at hthere
    exact p.removeAll_found_of_mem _ ((hstale k).mpr ⟨hthere, hk⟩) hthere hpart
  found_of_not_stale name hname := by
    rw [p.removeAll_found_of_not_mem, p.putAll_found haccepts hnodup]
    intro k hk hthere hpart
    have hnew := ((hstale k).mp hk).2
    rw [p.putAll_lookup_of_not_mem s hnew] at hthere
    exact hname ⟨k, hthere, hnew, hpart⟩

theorem mem_ids_flatMap {s : TimelineStage α} {items : List ι} {name : String} :
    name ∈ Mark.ids (items.flatMap (p.marks s)) ↔ ∃ x ∈ items, name ∈ p.partIds (p.key x) := by
  simp only [Mark.mem_ids_flatMap, p.ids_marks]

namespace Ran

variable {p} {s t : TimelineStage α} {items : List ι}

/-- After a phase the items are there and nothing else of their kind. -/
theorem isSome_lookup_iff (h : p.Ran s items t) {k : String} :
    (p.lookup t k).isSome ↔ k ∈ items.map p.key := by
  constructor
  · intro hthere
    by_cases hk : k ∈ items.map p.key
    · exact hk
    · rw [h.lookup_of_not_mem k hk] at hthere
      cases hthere
  · intro hk
    obtain ⟨x, hx, rfl⟩ := List.mem_map.mp hk
    rw [h.lookup_of_mem x hx]
    rfl

/-- A phase leaves alone what is no part of its kind. -/
theorem found_of_foreign (h : p.Ran s items t) {name : String} (hname : ∀ k, name ∉ p.partIds k) :
    t.surface.primitives[name]? = s.surface.primitives[name]? := by
  have hfresh : ¬p.Stale s items name := fun ⟨k, _, _, hpart⟩ => hname k hpart
  rw [h.found_of_not_stale name hfresh, Mark.effect_of_not_mem]
  intro hmem
  obtain ⟨x, _, hpart⟩ := p.mem_ids_flatMap.mp hmem
  exact hname _ hpart

/-- What is found after a phase is part of an item, or it was found before and
    was no part of anything that the phase is about. -/
theorem mem_cases (h : p.Ran s items t) {name : String} (hname : name ∈ t.surface.primitives) :
    (∃ k, (p.lookup t k).isSome ∧ name ∈ p.partIds k) ∨
      name ∈ s.surface.primitives ∧ ¬∃ k, (p.lookup s k).isSome ∧ name ∈ p.partIds k := by
  rw [Std.ExtTreeMap.mem_iff_isSome_getElem?] at hname
  have hfresh : ¬p.Stale s items name := by
    intro hstale
    rw [h.found_of_stale name hstale] at hname
    cases hname
  by_cases hitem : ∃ x ∈ items, name ∈ p.partIds (p.key x)
  · obtain ⟨x, hx, hpart⟩ := hitem
    exact .inl ⟨p.key x, h.isSome_lookup_iff.mpr (List.mem_map_of_mem hx), hpart⟩
  · right
    have hmem : name ∉ Mark.ids (items.flatMap (p.marks s)) := fun hmem =>
      hitem (p.mem_ids_flatMap.mp hmem)
    rw [h.found_of_not_stale name hfresh, Mark.effect_of_not_mem hmem] at hname
    refine ⟨Std.ExtTreeMap.mem_iff_isSome_getElem?.mpr hname, ?_⟩
    rintro ⟨k, hthere, hpart⟩
    by_cases hk : k ∈ items.map p.key
    · obtain ⟨x, hx, rfl⟩ := List.mem_map.mp hk
      exact hitem ⟨x, hx, hpart⟩
    · exact hfresh ⟨k, hthere, hk, hpart⟩

/-- If all that is found before the phase belongs to things of its kind, what is
    not stale is found as the items leave it on an empty surface. -/
theorem found_eq_effect (h : p.Ran s items t) {name : String} (hfresh : ¬p.Stale s items name)
    (howned : name ∈ s.surface.primitives → ∃ k, (p.lookup s k).isSome ∧ name ∈ p.partIds k) :
    t.surface.primitives[name]? = Mark.effect (items.flatMap (p.marks s)) name none := by
  rw [h.found_of_not_stale name hfresh]
  by_cases hmem : name ∈ Mark.ids (items.flatMap (p.marks s))
  · exact Mark.effect_of_mem hmem _ _
  · rw [Mark.effect_of_not_mem hmem, Mark.effect_of_not_mem hmem]
    apply Std.ExtTreeMap.getElem?_eq_none
    intro hname
    obtain ⟨k, hthere, hpart⟩ := howned hname
    by_cases hk : k ∈ items.map p.key
    · obtain ⟨x, hx, rfl⟩ := List.mem_map.mp hk
      exact hmem (p.mem_ids_flatMap.mpr ⟨x, hx, hpart⟩)
    · exact hfresh ⟨k, hthere, hk, hpart⟩

end Ran

end Phase

end LiveDiagram
