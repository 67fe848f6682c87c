import LiveDiagram.Stage.Basic

namespace LiveDiagram

variable {α : Type}

namespace Mark

/-- The id under which a mark is made. -/
def id : Mark α → String
  | put id _ => id
  | erase id => id

/-- What a mark leaves under its id. -/
def result : Mark α → Option (Primitive α)
  | put _ p => some p
  | erase _ => none

/-- The ids that some marks are made under. -/
def ids (marks : List (Mark α)) : List String :=
  marks.map Mark.id

@[simp] theorem ids_nil : ids ([] : List (Mark α)) = [] :=
  rfl

@[simp] theorem ids_cons (m : Mark α) (marks : List (Mark α)) : ids (m :: marks) = m.id :: ids marks :=
  rfl

/-- The ids of several owners are those of each, one after the other. -/
theorem ids_flatten (owners : List (List (Mark α))) : ids owners.flatten = (owners.map ids).flatten :=
  List.map_flatten

/-- An id is among those of several owners if it is one of an owner's. -/
theorem mem_ids_flatMap {ι : Type} {items : List ι} {marks : ι → List (Mark α)} {name : String} :
    name ∈ ids (items.flatMap marks) ↔ ∃ x ∈ items, name ∈ ids (marks x) := by
  rw [List.flatMap, ids_flatten, List.map_map, List.mem_flatten]
  simp only [List.mem_map, Function.comp_apply]
  constructor
  · rintro ⟨_, ⟨x, hx, rfl⟩, hname⟩
    exact ⟨x, hx, hname⟩
  · rintro ⟨x, hx, hname⟩
    exact ⟨_, ⟨x, hx, rfl⟩, hname⟩

theorem mem_ids {m : Mark α} {marks : List (Mark α)} (hm : m ∈ marks) : m.id ∈ ids marks :=
  List.mem_map_of_mem hm

/-- What is found under an id after some marks, given what was found there
    before them. Marks are made one after the other, so the last one under the
    id counts. -/
def effect (marks : List (Mark α)) (id : String) (found : Option (Primitive α)) :
    Option (Primitive α) :=
  marks.foldl (fun found m => if m.id = id then m.result else found) found

@[simp] theorem effect_nil (id : String) (found : Option (Primitive α)) : effect [] id found = found :=
  rfl

theorem effect_cons (m : Mark α) (marks : List (Mark α)) (id : String)
    (found : Option (Primitive α)) :
    effect (m :: marks) id found = effect marks id (if m.id = id then m.result else found) :=
  rfl

theorem effect_append (first second : List (Mark α)) (id : String) (found : Option (Primitive α)) :
    effect (first ++ second) id found = effect second id (effect first id found) :=
  List.foldl_append

/-- Marks under other ids leave what is found under an id, the induction being
    on the marks. -/
theorem effect_of_not_mem {marks : List (Mark α)} {id : String} (hid : id ∉ Mark.ids marks)
    (found : Option (Primitive α)) : effect marks id found = found := by
  induction marks generalizing found with
  | nil => rfl
  | cons m marks ih =>
    simp only [ids_cons, List.mem_cons, not_or] at hid
    rw [effect_cons, if_neg (Ne.symm hid.1)]
    exact ih hid.2 found

/-- Once an id is marked, what was found there before does not matter, since the
    last mark under it settles what is there. -/
theorem effect_of_mem {marks : List (Mark α)} {id : String} (hid : id ∈ Mark.ids marks)
    (found other : Option (Primitive α)) : effect marks id found = effect marks id other := by
  induction marks generalizing found other with
  | nil => simp at hid
  | cons m marks ih =>
    rw [effect_cons, effect_cons]
    by_cases hm : m.id = id
    · simp only [if_pos hm]
    · simp only [if_neg hm]
      rw [ids_cons, List.mem_cons] at hid
      exact ih (hid.resolve_left fun h => hm h.symm) found other

/-- Making the same marks a second time changes nothing, also where they share
    an id. -/
theorem effect_effect (marks : List (Mark α)) (id : String) (found : Option (Primitive α)) :
    effect marks id (effect marks id found) = effect marks id found := by
  by_cases hid : id ∈ Mark.ids marks
  · exact effect_of_mem hid _ _
  · rw [effect_of_not_mem hid]

/-- When no two marks share an id, each leaves its own result, whichever comes
    last. -/
theorem effect_of_nodup {marks : List (Mark α)} (hnodup : (Mark.ids marks).Nodup) {m : Mark α}
    (hm : m ∈ marks) (found : Option (Primitive α)) : effect marks m.id found = m.result := by
  induction marks generalizing found with
  | nil => simp at hm
  | cons first marks ih =>
    rw [ids_cons, List.nodup_cons] at hnodup
    rw [effect_cons]
    rcases List.mem_cons.mp hm with rfl | hrest
    · rw [if_pos rfl]
      exact effect_of_not_mem hnodup.1 _
    · exact ih hnodup.2 hrest _

end Mark

namespace Surface

/-- Nothing is refused on the surface. -/
def Accepts (s : Surface α) : Prop :=
  s.refused = []

theorem accepts_empty : ({} : Surface α).Accepts :=
  rfl

theorem put_getElem? (s : Surface α) (id other : String) (p : Primitive α) :
    (s.put id p).primitives[other]? = if id = other then some p else s.primitives[other]? := by
  simp only [put]
  grind

/-- Erasing is seen under its id and nowhere else, also where nothing was to be
    erased. -/
theorem erase_getElem? (s : Surface α) (id other : String) :
    (s.erase id).primitives[other]? = if id = other then none else s.primitives[other]? := by
  unfold erase
  split <;> grind

@[simp] theorem erase_refused (s : Surface α) (id : String) : (s.erase id).refused = s.refused := by
  unfold erase
  split <;> rfl

/-- Drawing changes nothing about what the surface refuses. -/
@[simp] theorem draw_refused (s : Surface α) (marks : List (Mark α)) :
    (s.draw marks).1.refused = s.refused := by
  induction marks generalizing s with
  | nil => rfl
  | cons m marks ih =>
    cases m with
    | put id p =>
      unfold draw
      split
      · rfl
      · exact ih (s.put id p)
    | erase id =>
      unfold draw
      rw [ih, erase_refused]

/-- Under an id that is not marked drawing leaves what is there, whether or not
    it is stopped on the way. -/
theorem draw_getElem?_of_not_mem {s : Surface α} {marks : List (Mark α)} {id : String}
    (hid : id ∉ Mark.ids marks) : (s.draw marks).1.primitives[id]? = s.primitives[id]? := by
  induction marks generalizing s with
  | nil => rfl
  | cons m marks ih =>
    rw [Mark.ids_cons, List.mem_cons, not_or] at hid
    have hother := Ne.symm hid.1
    cases m with
    | put name p =>
      unfold draw
      split
      · rfl
      · rw [ih hid.2, put_getElem?]
        exact if_neg hother
    | erase name =>
      unfold draw
      rw [ih hid.2, erase_getElem?]
      exact if_neg hother

/-- A surface that refuses nothing is drawn on to the end, whatever the marks
    are. -/
theorem Accepts.draw_refusal {s : Surface α} (hs : s.Accepts) (marks : List (Mark α)) :
    (s.draw marks).2 = none := by
  induction marks generalizing s with
  | nil => rfl
  | cons m marks ih =>
    cases m with
    | put id p =>
      rw [draw, if_neg (by simp [show s.refused = [] from hs])]
      exact ih hs
    | erase id =>
      rw [draw]
      exact ih ((erase_refused s id).trans hs)

/-- Drawing on a surface that refuses nothing leaves under each id what the last
    mark there leaves. On any other surface this holds only as far as the
    drawing goes. -/
theorem Accepts.draw_getElem? {s : Surface α} (hs : s.Accepts) (marks : List (Mark α)) (id : String) :
    (s.draw marks).1.primitives[id]? = Mark.effect marks id s.primitives[id]? := by
  induction marks generalizing s with
  | nil => rfl
  | cons m marks ih =>
    cases m with
    | put name p =>
      have hput : (s.put name p).Accepts := hs
      rw [draw, if_neg (by simp [show s.refused = [] from hs]), ih hput, put_getElem?]
      rfl
    | erase name =>
      have herase : (s.erase name).Accepts := (erase_refused s name).trans hs
      rw [draw, ih herase, erase_getElem?]
      rfl

/-- After drawing, what is on a surface was drawn or was there before. -/
theorem Accepts.mem_draw {s : Surface α} (hs : s.Accepts) {marks : List (Mark α)} {name : String}
    (hname : name ∈ (s.draw marks).1.primitives) : name ∈ Mark.ids marks ∨ name ∈ s.primitives := by
  by_cases hmem : name ∈ Mark.ids marks
  · exact .inl hmem
  · right
    rw [Std.ExtTreeMap.mem_iff_isSome_getElem?, hs.draw_getElem?, Mark.effect_of_not_mem hmem] at hname
    exact Std.ExtTreeMap.mem_iff_isSome_getElem?.mpr hname

/-- Erasing id after id changes nothing about what the surface refuses. -/
@[simp] theorem foldl_erase_refused (s : Surface α) (ids : List String) :
    (ids.foldl erase s).refused = s.refused := by
  induction ids generalizing s with
  | nil => rfl
  | cons id ids ih => rw [List.foldl_cons, ih, erase_refused]

/-- Erasing some ids is seen under these and nowhere else. -/
theorem foldl_erase_getElem? (s : Surface α) (ids : List String) (id : String) :
    (ids.foldl erase s).primitives[id]? = if id ∈ ids then none else s.primitives[id]? := by
  induction ids generalizing s with
  | nil => simp
  | cons first ids ih =>
    rw [List.foldl_cons, ih, erase_getElem?]
    by_cases hrest : id ∈ ids
    · simp [hrest]
    · by_cases hfirst : first = id
      · simp [hfirst]
      · simp [hrest, hfirst, Ne.symm hfirst]

/-- The surface shows some marks: under the id of each it has what the mark
    leaves there. -/
def Shows (s : Surface α) (marks : List (Mark α)) : Prop :=
  ∀ m ∈ marks, s.primitives[m.id]? = m.result

/-- Marks without a common id are shown once they are drawn. With a common id
    the earlier of two marks would be gone again. -/
theorem Accepts.shows_draw {s : Surface α} (hs : s.Accepts) {marks : List (Mark α)}
    (hnodup : (Mark.ids marks).Nodup) : (s.draw marks).1.Shows marks := by
  intro m hm
  rw [hs.draw_getElem?]
  exact Mark.effect_of_nodup hnodup hm _

/-- What is shown stays shown on a surface that has the same under all its
    ids. -/
theorem Shows.congr {s t : Surface α} {marks : List (Mark α)} (hshows : s.Shows marks)
    (hsame : ∀ id ∈ Mark.ids marks, t.primitives[id]? = s.primitives[id]?) : t.Shows marks := by
  intro m hm
  rw [hsame m.id (Mark.mem_ids hm)]
  exact hshows m hm

end Surface

namespace Stage

variable {π : Type}

@[simp] theorem draw_picture (s : Stage π α) (marks : List (Mark α)) :
    (s.draw marks).state.picture = s.picture :=
  rfl

@[simp] theorem draw_store (s : Stage π α) (marks : List (Mark α)) :
    (s.draw marks).state.store = s.store :=
  rfl

@[simp] theorem draw_surface (s : Stage π α) (marks : List (Mark α)) :
    (s.draw marks).state.surface = (s.surface.draw marks).1 :=
  rfl

end Stage

end LiveDiagram
