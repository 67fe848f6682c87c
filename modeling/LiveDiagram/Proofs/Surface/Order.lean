import Mathlib.Data.String.Basic
import LiveDiagram.Surface.Basic

namespace LiveDiagram

variable {α : Type}

section Lists

variable {ι : Type} {R : ι → ι → Prop} {l : List ι} {a b : ι}

/-- Of two members of a list in order, the one that does not come later comes
    first. Only the order of the list is known here, and not that it is
    total. -/
theorem pair_sublist_of_pairwise (hl : l.Pairwise R) (ha : a ∈ l) (hb : b ∈ l) (hne : a ≠ b) (hnot : ¬ R b a) :
    [a, b].Sublist l := by
  induction l with
  | nil => cases ha
  | cons first l ih =>
    obtain ⟨hfirst, hl⟩ := List.pairwise_cons.mp hl
    rcases List.mem_cons.mp ha with rfl | hamem
    · exact (List.singleton_sublist.mpr ((List.mem_cons.mp hb).resolve_left hne.symm)).cons_cons a
    · rcases List.mem_cons.mp hb with rfl | hbmem
      · exact absurd (hfirst a hamem) hnot
      · exact (ih hl hamem hbmem).cons first

/-- What is found first in a list in order comes before everything else that
    could have been found. -/
theorem rel_of_find? (hl : l.Pairwise R) {q : ι → Bool} (hfound : l.find? q = some b) (ha : a ∈ l) (hq : q a)
    (hne : a ≠ b) : R b a := by
  obtain ⟨-, before, after, rfl, hbefore⟩ := List.find?_eq_some_iff_append.mp hfound
  rcases List.mem_append.mp ha with hmem | hmem
  · have hnot := hbefore a hmem
    rw [hq] at hnot
    cases hnot
  · have hafter := (List.mem_cons.mp hmem).resolve_left hne
    exact (List.pairwise_cons.mp (List.pairwise_append.mp hl).2.1).1 a hafter

/-- What is kept under ids is listed in the order of the ids. -/
theorem pairwise_toList (items : Std.ExtTreeMap String ι) : items.toList.Pairwise fun p q => p.1 < q.1 :=
  Std.ExtTreeMap.ordered_keys_toList.imp compare_lt_iff_lt.mp

end Lists

namespace Surface

/-- Both are on the surface, and one is drawn before the other. -/
def DrawnBefore (s : Surface α) (lower upper : String) : Prop :=
  [lower, upper].Sublist (s.drawOrder.map Prod.fst)

/-- One primitive is below the other, or at the same height with the lesser
    id. -/
def Below (p q : String × Primitive α) : Prop :=
  p.2.z < q.2.z ∨ p.2.z = q.2.z ∧ p.1 < q.1

/-- Of two primitives at most one is below the other. -/
theorem Below.asymm {p q : String × Primitive α} (h : Below p q) : ¬ Below q p := by
  rintro (hlower | ⟨hsame, hless⟩) <;> rcases h with h | ⟨heq, hid⟩
  · exact hlower.asymm h
  · exact hlower.ne heq.symm
  · exact h.ne hsame.symm
  · exact hless.asymm hid

variable {s : Surface α}

/-- What is drawn is what is on the surface, each primitive once. -/
theorem mem_drawOrder {p : String × Primitive α} : p ∈ s.drawOrder ↔ s.primitives[p.1]? = some p.2 := by
  rw [drawOrder, List.mem_mergeSort]
  exact Std.ExtTreeMap.mem_toList_iff_getElem?_eq_some

/-- Primitives at one height are drawn in the order in which they are kept.
    Sorting by height does not change places among them. -/
theorem filter_drawOrder (s : Surface α) (z : Int) :
    s.drawOrder.filter (fun p => p.2.z = z) = s.primitives.toList.filter fun p => p.2.z = z := by
  have hheight (p : String × Primitive α)
      (hp : p ∈ s.primitives.toList.filter fun p => p.2.z = z) : p.2.z = z := by
    simpa using (List.mem_filter.mp hp).2
  have hsorted : (s.primitives.toList.filter fun p => p.2.z = z).Pairwise fun p q =>
      decide (p.2.z ≤ q.2.z) = true := by
    refine List.pairwise_of_forall_mem_list fun p hp q hq => ?_
    rw [hheight p hp, hheight q hq]
    simp
  have hkept : (s.primitives.toList.filter fun p => p.2.z = z).Sublist s.drawOrder := by
    refine List.sublist_mergeSort (fun _ _ _ => ?_) (fun p q => ?_) hsorted List.filter_sublist
    · simpa using le_trans
    · simpa using le_total p.2.z q.2.z
  have hfiltered := hkept.filter fun p => p.2.z = z
  rw [List.filter_filter] at hfiltered
  simp only [Bool.and_self] at hfiltered
  refine (hfiltered.eq_of_length ?_).symm
  exact ((List.mergeSort_perm _ _).filter _).length_eq.symm

/-- Primitives are drawn from the lowest to the highest, and those at one height
    in the order of their ids. -/
theorem pairwise_drawOrder (s : Surface α) : s.drawOrder.Pairwise Below := by
  refine List.pairwise_iff_forall_sublist.mpr fun {p q} hpair => ?_
  have hsorted : s.drawOrder.Pairwise fun p q => decide (p.2.z ≤ q.2.z) = true := by
    refine List.pairwise_mergeSort (fun _ _ _ => ?_) (fun p q => ?_) _
    · simpa using le_trans
    · simpa using le_total p.2.z q.2.z
  have hle : p.2.z ≤ q.2.z := by simpa using List.pairwise_iff_forall_sublist.mp hsorted hpair
  rcases hle.lt_or_eq with hlower | hsame
  · exact .inl hlower
  · have hfiltered := hpair.filter fun r => r.2.z = q.2.z
    rw [filter_drawOrder] at hfiltered
    simp only [hsame, decide_true, List.filter_cons_of_pos, List.filter_nil] at hfiltered
    have hkept : [p, q].Sublist s.primitives.toList := hfiltered.trans List.filter_sublist
    exact .inr ⟨hsame, List.pairwise_iff_forall_sublist.mp (pairwise_toList s.primitives) hkept⟩

/-- Two primitives are drawn in the order of their heights and, at one height,
    of their ids. Both have to be on the surface. -/
theorem drawnBefore_iff {lower upper : String} : s.DrawnBefore lower upper ↔
    ∃ p q, s.primitives[lower]? = some p ∧ s.primitives[upper]? = some q ∧ Below (lower, p) (upper, q) := by
  constructor
  · intro h
    obtain ⟨pair, hpair, hnames⟩ := List.sublist_map_iff.mp h
    obtain ⟨⟨_, p⟩, rest, rfl, rfl, hrest⟩ := List.map_eq_cons_iff.mp hnames.symm
    obtain ⟨⟨_, q⟩, rfl, rfl⟩ := List.map_eq_singleton_iff.mp hrest
    refine ⟨p, q, mem_drawOrder.mp (hpair.subset ?_), mem_drawOrder.mp (hpair.subset ?_),
      List.pairwise_iff_forall_sublist.mp s.pairwise_drawOrder hpair⟩ <;> simp
  · rintro ⟨p, q, hp, hq, hbelow⟩
    refine (pair_sublist_of_pairwise s.pairwise_drawOrder (mem_drawOrder.mpr hp) (mem_drawOrder.mpr hq) ?_
      hbelow.asymm).map Prod.fst
    rintro heq
    rw [heq] at hbelow
    exact hbelow.asymm hbelow

/-- At one height the primitive with the lesser id is drawn first, and so the
    other one covers it. -/
theorem drawnBefore_of_lt {lower upper : String} {p q : Primitive α} (hp : s.primitives[lower]? = some p)
    (hq : s.primitives[upper]? = some q) (hz : p.z = q.z) (hless : lower < upper) : s.DrawnBefore lower upper :=
  drawnBefore_iff.mpr ⟨p, q, hp, hq, .inr ⟨hz, hless⟩⟩

/-- Of two primitives at most one is drawn before the other, since no id stands
    twice in the order. -/
theorem DrawnBefore.asymm {lower upper : String} (h : s.DrawnBefore lower upper) : ¬ s.DrawnBefore upper lower := by
  intro hreverse
  obtain ⟨p, q, hp, hq, hbelow⟩ := drawnBefore_iff.mp h
  obtain ⟨q', p', hq', hp', hbelow'⟩ := drawnBefore_iff.mp hreverse
  obtain rfl := Option.some.inj (hp.symm.trans hp')
  obtain rfl := Option.some.inj (hq.symm.trans hq')
  exact hbelow.asymm hbelow'

/-- Of the primitives with these ids, this one is drawn first. -/
structure DrawnFirst (s : Surface α) (names : String → Prop) (name : String) : Prop where
  among : names name
  drawn : name ∈ s.primitives
  before : ∀ other, names other → other ≠ name → s.DrawnBefore name other

/-- Of the primitives with these ids, this one is drawn last. -/
structure DrawnLast (s : Surface α) (names : String → Prop) (name : String) : Prop where
  among : names name
  drawn : name ∈ s.primitives
  after : ∀ other, names other → other ≠ name → s.DrawnBefore other name

/-- What is drawn first is drawn last only if there is nothing else among the
    names. -/
theorem DrawnFirst.drawnLast_iff {names : String → Prop} {name : String} (h : s.DrawnFirst names name) :
    s.DrawnLast names name ↔ ∀ other, names other → other = name := by
  constructor
  · intro hlast other hother
    by_contra hne
    exact (h.before other hother hne).asymm (hlast.after other hother hne)
  · intro halone
    exact ⟨h.among, h.drawn, fun other hother hne => absurd (halone other hother) hne⟩

end Surface

end LiveDiagram
