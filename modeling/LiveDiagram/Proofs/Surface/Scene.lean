import LiveDiagram.Proofs.Surface.Drawing

namespace LiveDiagram

variable {α : Type}

namespace Surface

/-- The surface shows the marks of every owner in the scene, and what is on it
    is part of an owner. There is only one such surface, up to the count of its
    changes, so a surface that is kept up to date owner by owner is the one that
    drawing the whole scene afresh gives. -/
structure Depicts (s : Surface α) (scene : List (Mark α) → Prop) : Prop where
  shows : ∀ marks, scene marks → s.Shows marks
  owned : ∀ name ∈ s.primitives, ∃ marks, scene marks ∧ name ∈ Mark.ids marks

section Depicts

variable {s t : Surface α} {scene scene' : List (Mark α) → Prop}

theorem depicts_empty (hs : s.primitives = ∅) : s.Depicts fun _ => False where
  shows _ h := h.elim
  owned name hname := by
    rw [hs] at hname
    simp at hname

/-- Depicting is about the primitives and the owners, not about how either came
    to be told. -/
theorem Depicts.congr (h : s.Depicts scene) (hsame : ∀ marks, scene' marks ↔ scene marks)
    (hprimitives : t.primitives = s.primitives) : t.Depicts scene' where
  shows marks hmarks :=
    (h.shows marks ((hsame marks).mp hmarks)).congr fun _ _ => by rw [hprimitives]
  owned name hname := by
    rw [hprimitives] at hname
    obtain ⟨marks, hmarks, hmem⟩ := h.owned name hname
    exact ⟨marks, (hsame marks).mpr hmarks, hmem⟩

/-- What is found under the id of a mark of an owner is what the mark leaves. -/
theorem Depicts.getElem?_of_mem (h : s.Depicts scene) {marks : List (Mark α)} (hmarks : scene marks)
    {m : Mark α} (hm : m ∈ marks) : s.primitives[m.id]? = m.result :=
  h.shows marks hmarks m hm

/-- Drawing an owner anew, or a new one: the other owners stay what they were
    and share no id with it. An owner that leaves the scene has to have all its
    ids among those that are drawn over. -/
theorem Depicts.draw (h : s.Depicts scene) (hs : s.Accepts) {marks : List (Mark α)}
    (hnodup : (Mark.ids marks).Nodup) (hnew : scene' marks)
    (hothers : ∀ other, scene' other →
      other = marks ∨ scene other ∧ ∀ name ∈ Mark.ids other, name ∉ Mark.ids marks)
    (hold : ∀ other, scene other →
      (∀ name ∈ Mark.ids other, name ∈ Mark.ids marks) ∨ scene' other) :
    (s.draw marks).1.Depicts scene' where
  shows other hother := by
    rcases hothers other hother with rfl | ⟨hbefore, hdisjoint⟩
    · exact hs.shows_draw hnodup
    · refine (h.shows other hbefore).congr fun name hname => ?_
      rw [hs.draw_getElem?, Mark.effect_of_not_mem (hdisjoint name hname)]
  owned name hname := by
    rcases hs.mem_draw hname with hmem | hmem
    · exact ⟨marks, hnew, hmem⟩
    · obtain ⟨other, hother, hown⟩ := h.owned name hmem
      rcases hold other hother with hcovered | hkept
      · exact ⟨marks, hnew, hcovered name hown⟩
      · exact ⟨other, hkept, hown⟩

/-- Erasing the parts of owners that leave the scene. The owners that stay share
    no id with what is erased. -/
theorem Depicts.erase (h : s.Depicts scene) {names : List String}
    (hleft : ∀ other, scene' other → scene other ∧ ∀ name ∈ Mark.ids other, name ∉ names)
    (hgone : ∀ other, scene other → (∀ name ∈ Mark.ids other, name ∈ names) ∨ scene' other) :
    (names.foldl Surface.erase s).Depicts scene' where
  shows other hother := by
    obtain ⟨hbefore, hdisjoint⟩ := hleft other hother
    refine (h.shows other hbefore).congr fun name hname => ?_
    rw [foldl_erase_getElem?, if_neg (hdisjoint name hname)]
  owned name hname := by
    rw [Std.ExtTreeMap.mem_iff_isSome_getElem?, foldl_erase_getElem?] at hname
    split at hname
    · cases hname
    · rename_i hnot
      obtain ⟨other, hother, hown⟩ :=
        h.owned name (Std.ExtTreeMap.mem_iff_isSome_getElem?.mpr hname)
      rcases hgone other hother with herased | hkept
      · exact absurd (herased name hown) hnot
      · exact ⟨other, hkept, hown⟩

end Depicts

end Surface

end LiveDiagram
