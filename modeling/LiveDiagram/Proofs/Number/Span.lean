import LiveDiagram.Number.Scalar
import Mathlib.Data.List.Basic

namespace LiveDiagram

variable {α : Type} [Scalar α]

/-- Laws of scalars that are ordered: nothing is less than itself, and the order
    is transitive. A number that compares with nothing breaks neither. -/
structure Scalar.StrictOrder (α : Type) [Scalar α] : Prop where
  irrefl : ∀ a : α, ¬ a < a
  trans : ∀ {a b c : α}, a < b → b < c → a < c

/-- Two of the values are the least and the greatest: where the scalars are
    ordered, no value is below the one or above the other. -/
structure Spans (values : α → Prop) (least greatest : α) : Prop where
  least_mem : values least
  greatest_mem : values greatest
  not_outside : Scalar.StrictOrder α → ∀ c, values c → ¬ c < least ∧ ¬ greatest < c

namespace Spans

variable {values : α → Prop} {least greatest : α}

/-- Which values are spanned matters, not how they are told. -/
theorem congr (h : Spans values least greatest) {values' : α → Prop}
    (hvalues : ∀ c, values' c ↔ values c) : Spans values' least greatest where
  least_mem := (hvalues least).mpr h.least_mem
  greatest_mem := (hvalues greatest).mpr h.greatest_mem
  not_outside horder c hc := h.not_outside horder c ((hvalues c).mp hc)

/-- A single value is the least and the greatest of itself. With scalars that
    are not ordered, a span has nothing more to say than that. -/
theorem singleton (c : α) : Spans (fun d => d = c) c c where
  least_mem := rfl
  greatest_mem := rfl
  not_outside horder d hd := by
    subst hd
    exact ⟨horder.irrefl d, horder.irrefl d⟩

/-- One more value replaces the least one if it is less, and the greatest one if
    it is greater. -/
theorem step (h : Spans values least greatest) (c : α) :
    Spans (fun d => values d ∨ d = c) (if c < least then c else least)
      (if greatest < c then c else greatest) where
  least_mem := by
    split
    · exact .inr rfl
    · exact .inl h.least_mem
  greatest_mem := by
    split
    · exact .inr rfl
    · exact .inl h.greatest_mem
  not_outside horder d hd := by
    rcases hd with hd | rfl
    · obtain ⟨hbelow, habove⟩ := h.not_outside horder d hd
      constructor
      · split
        · rename_i hless
          exact fun hlower => hbelow (horder.trans hlower hless)
        · exact hbelow
      · split
        · rename_i hgreater
          exact fun hhigher => habove (horder.trans hgreater hhigher)
        · exact habove
    · constructor
      · split
        · exact horder.irrefl d
        · assumption
      · split
        · exact horder.irrefl d
        · assumption

/-- Values that are gone through one after the other are spanned together with
    those before them, whichever replaces the least or the greatest on the
    way. -/
theorem foldl (h : Spans values least greatest) (cs : List α) :
    Spans (fun d => values d ∨ d ∈ cs)
      (cs.foldl (fun (least, greatest) c =>
        (if c < least then c else least, if greatest < c then c else greatest)) (least, greatest)).1
      (cs.foldl (fun (least, greatest) c =>
        (if c < least then c else least, if greatest < c then c else greatest)) (least, greatest)).2 := by
  induction cs generalizing values least greatest with
  | nil => exact h.congr fun c => by simp
  | cons c cs ih => exact (ih (h.step c)).congr fun d => by simp [or_assoc]

/-- The least value and the greatest one may be found each on its own, in two
    passes over the same values. -/
theorem foldl_lesser_greater (h : Spans values least greatest) (cs : List α) :
    Spans (fun d => values d ∨ d ∈ cs) (cs.foldl Scalar.lesser least) (cs.foldl Scalar.greater greatest) := by
  induction cs generalizing values least greatest with
  | nil => exact h.congr fun c => by simp
  | cons c cs ih => exact (ih (h.step c)).congr fun d => by simp [or_assoc]

end Spans

end LiveDiagram
