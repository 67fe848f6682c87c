import Mathlib.Tactic.Linarith
import LiveDiagram.Proofs.Number.Exact
import LiveDiagram.Proofs.Surface.Order

namespace LiveDiagram

namespace Rect

/-- The first rectangle covers the second. -/
structure Covers (r q : Rect ℝ) : Prop where
  left : r.left ≤ q.left
  right : q.right ≤ r.right
  top : r.top ≤ q.top
  bottom : q.bottom ≤ r.bottom

/-- The rectangle has neither width nor height. -/
def IsPoint (r : Rect ℝ) : Prop :=
  r.width = 0 ∧ r.height = 0

/-- Neither the width nor the height is negative. -/
structure Nonneg (r : Rect ℝ) : Prop where
  width : 0 ≤ r.width
  height : 0 ≤ r.height

/-- The first rectangle covers the second, unless that is a single point. -/
def CoversExtent (r q : Rect ℝ) : Prop :=
  ¬ q.IsPoint → r.Covers q

variable {r q c : Rect ℝ}

theorem contains_iff {p : Point ℝ} :
    r.contains p = true ↔ (r.left ≤ p.x ∧ p.x ≤ r.right) ∧ r.top ≤ p.y ∧ p.y ≤ r.bottom := by
  simp [contains, left, top, and_assoc]

namespace Covers

theorem refl (r : Rect ℝ) : r.Covers r :=
  ⟨le_rfl, le_rfl, le_rfl, le_rfl⟩

/-- What lies in a rectangle lies in every one that covers it. -/
theorem contains {p : Point ℝ} (h : r.Covers q) (hp : q.contains p) : r.contains p := by
  obtain ⟨⟨hleft, hright⟩, htop, hbottom⟩ := contains_iff.mp hp
  exact contains_iff.mpr ⟨⟨h.left.trans hleft, hright.trans h.right⟩, h.top.trans htop,
    hbottom.trans h.bottom⟩

theorem width_le (h : r.Covers q) : q.width ≤ r.width := by
  have hleft : r.x ≤ q.x := h.left
  have hright : q.x + q.width ≤ r.x + r.width := h.right
  linarith

theorem height_le (h : r.Covers q) : q.height ≤ r.height := by
  have htop : r.y ≤ q.y := h.top
  have hbottom : q.y + q.height ≤ r.y + r.height := h.bottom
  linarith

/-- A single point covers nothing that has an extent. The sides of what is
    covered must not be negative, since a negative one would be covered by
    less. -/
theorem not_isPoint (h : r.Covers q) (hq : q.Nonneg) (hextent : ¬ q.IsPoint) : ¬ r.IsPoint := by
  rintro ⟨hwidth, hheight⟩
  exact hextent ⟨(h.width_le.trans_eq hwidth).antisymm hq.width,
    (h.height_le.trans_eq hheight).antisymm hq.height⟩

end Covers

/-- A rectangle without negative sides counts as empty just if it is a single
    point. -/
theorem Nonneg.isEmpty_iff (hr : r.Nonneg) : r.isEmpty = true ↔ r.IsPoint := by
  simp only [isEmpty, Bool.and_eq_true, decide_eq_true_eq, Scalar.zero_real, IsPoint, hr.width.ge_iff_eq',
    hr.height.ge_iff_eq']

theorem zero_isPoint : (zero : Rect ℝ).IsPoint :=
  ⟨Scalar.zero_real, Scalar.zero_real⟩

theorem IsPoint.nonneg (hr : r.IsPoint) : r.Nonneg :=
  ⟨hr.1.ge, hr.2.ge⟩

/-- A single point counts for nothing on the left, so joining may start from
    it. -/
theorem IsPoint.union (hr : r.IsPoint) (q : Rect ℝ) : r.union q = q := by
  rw [Rect.union, if_pos (hr.nonneg.isEmpty_iff.mpr hr)]

/-- Nor does it on the right, beside what has an extent. Beside another point it
    does: of two of them the second is left. -/
theorem Nonneg.union_isPoint (hr : r.Nonneg) (hextent : ¬ r.IsPoint) (hq : q.IsPoint) : r.union q = r := by
  rw [Rect.union, if_neg (mt hr.isEmpty_iff.mp hextent), if_pos (hq.nonneg.isEmpty_iff.mpr hq)]

/-- The sides of what two rectangles with an extent are joined to: the least of
    their left and upper ones and the greatest of the others. -/
theorem Nonneg.union_eq (hr : r.Nonneg) (hq : q.Nonneg) (hrextent : ¬ r.IsPoint) (hqextent : ¬ q.IsPoint) :
    r.union q = ⟨min r.left q.left, min r.top q.top, max q.right r.right - min r.left q.left,
      max q.bottom r.bottom - min r.top q.top⟩ := by
  rw [Rect.union, if_neg (mt hr.isEmpty_iff.mp hrextent), if_neg (mt hq.isEmpty_iff.mp hqextent)]
  simp only [min_def_lt, max_def_lt]

/-- Two rectangles with an extent are joined to one that is covered by what
    covers both, which makes it the least one around them. -/
theorem Nonneg.covers_union_iff (hr : r.Nonneg) (hq : q.Nonneg) (hrextent : ¬ r.IsPoint) (hqextent : ¬ q.IsPoint) :
    c.Covers (r.union q) ↔ c.Covers r ∧ c.Covers q := by
  rw [hr.union_eq hq hrextent hqextent]
  constructor
  · rintro ⟨hleft, hright, htop, hbottom⟩
    simp only [right, bottom, add_sub_cancel, max_le_iff] at hright hbottom
    obtain ⟨hleft, hleft'⟩ := le_min_iff.mp hleft
    obtain ⟨htop, htop'⟩ := le_min_iff.mp htop
    exact ⟨⟨hleft, hright.2, htop, hbottom.2⟩, hleft', hright.1, htop', hbottom.1⟩
  · rintro ⟨h, h'⟩
    constructor
    · exact le_min h.left h'.left
    · simpa [right] using And.intro h'.right h.right
    · exact le_min h.top h'.top
    · simpa [bottom] using And.intro h'.bottom h.bottom

/-- Joining two rectangles gives one that is covered by what covers both, where
    a single point asks for no cover. Joining can then go on with it, since no
    side is negative. -/
theorem Nonneg.union (hr : r.Nonneg) (hq : q.Nonneg) :
    (r.union q).Nonneg ∧
      ∀ c : Rect ℝ, c.CoversExtent (r.union q) ↔ c.CoversExtent r ∧ c.CoversExtent q := by
  by_cases hrextent : r.IsPoint
  · rw [hrextent.union]
    exact ⟨hq, fun c => (and_iff_right (absurd hrextent)).symm⟩
  by_cases hqextent : q.IsPoint
  · rw [hr.union_isPoint hrextent hqextent]
    exact ⟨hr, fun c => (and_iff_left (absurd hqextent)).symm⟩
  have hboth := (hr.covers_union_iff hq hrextent hqextent (c := r.union q)).mp (.refl _)
  have hextent := hboth.1.not_isPoint hr hrextent
  refine ⟨⟨hr.width.trans hboth.1.width_le, hr.height.trans hboth.1.height_le⟩, fun c => ?_⟩
  simp only [CoversExtent, hextent, hrextent, hqextent, not_false_eq_true, true_implies]
  exact hr.covers_union_iff hq hrextent hqextent

/-- Joining rectangles one after the other gives one that is covered by what
    covers all of them, in whatever order they come. -/
theorem Nonneg.foldl_union (hr : r.Nonneg) (qs : List (Rect ℝ)) (hqs : ∀ q ∈ qs, q.Nonneg) :
    (qs.foldl Rect.union r).Nonneg ∧
      ∀ c : Rect ℝ, c.CoversExtent (qs.foldl Rect.union r) ↔
        c.CoversExtent r ∧ ∀ q ∈ qs, c.CoversExtent q := by
  induction qs generalizing r with
  | nil => exact ⟨hr, fun c => by simp⟩
  | cons q qs ih =>
    obtain ⟨hq, hqs⟩ := List.forall_mem_cons.mp hqs
    obtain ⟨hnonneg, hcovers⟩ := hr.union hq
    obtain ⟨hrest, hrestcovers⟩ := ih hnonneg hqs
    exact ⟨hrest, fun c => by rw [List.foldl_cons, hrestcovers, hcovers, List.forall_mem_cons, and_assoc]⟩

end Rect

section Shapes

variable {points : List (Point ℝ)}

/-- The points around which the bounds are drawn lie within them, however many
    there are. -/
theorem contains_boundsOf {q : Point ℝ} (hq : q ∈ points) : (boundsOf points).contains q := by
  cases points with
  | nil => cases hq
  | cons p points =>
    have hx := ((Spans.singleton p.x).foldl_lesser_greater ((p :: points).map Point.x)).not_outside
      Scalar.strictOrder_real q.x (.inr (List.mem_map_of_mem hq))
    have hy := ((Spans.singleton p.y).foldl_lesser_greater ((p :: points).map Point.y)).not_outside
      Scalar.strictOrder_real q.y (.inr (List.mem_map_of_mem hq))
    simp only [not_lt] at hx hy
    simpa [Rect.contains_iff, boundsOf, Rect.left, Rect.right, Rect.top, Rect.bottom] using ⟨hx, hy⟩

/-- Bounds that are a single point are drawn around that point alone, so two
    different points give bounds with an extent. -/
theorem eq_of_boundsOf_isPoint (h : (boundsOf points).IsPoint) {p q : Point ℝ} (hp : p ∈ points)
    (hq : q ∈ points) : p = q := by
  have hcorner {o : Point ℝ} (ho : o ∈ points) : o = ⟨(boundsOf points).x, (boundsOf points).y⟩ := by
    obtain ⟨⟨hleft, hright⟩, htop, hbottom⟩ := Rect.contains_iff.mp (contains_boundsOf ho)
    simp only [Rect.right, h.1, add_zero] at hright
    simp only [Rect.bottom, h.2, add_zero] at hbottom
    exact congrArg₂ Point.mk (hright.antisymm hleft) (hbottom.antisymm htop)
  rw [hcorner hp, hcorner hq]

/-- The points that a line, a path or a polygon is drawn through. -/
def Shape.controlPoints {α : Type} : Shape α → List (Point α)
  | line points | cubicPath points | polygon points => points
  | _ => []

/-- A shape that is drawn through two different points has an extent, and all
    its points lie within its bounds. Control points of a curve are among them,
    though the curve need not run through these. -/
theorem Shape.contains_bounds {shape : Shape ℝ} {p : Point ℝ} (hp : p ∈ shape.controlPoints)
    (hmany : ∃ q ∈ shape.controlPoints, ∃ q' ∈ shape.controlPoints, q ≠ q') :
    ¬ shape.bounds.IsPoint ∧ shape.bounds.contains p := by
  obtain ⟨q, hq, q', hq', hne⟩ := hmany
  cases shape with
  | line points | cubicPath points | polygon points =>
    exact ⟨fun h => hne (eq_of_boundsOf_isPoint h hq hq'), contains_boundsOf hp⟩
  | rect _ | roundedRect _ _ | circle _ | text _ _ => cases hp

end Shapes

namespace Surface

section Visible

variable {α : Type} {s t : Surface α}

/-- The primitive is on the surface under that id, and it is visible. -/
structure Presents (s : Surface α) (id : String) (p : Primitive α) : Prop where
  found : s.primitives[id]? = some p
  visible : p.visible

theorem mem_visible {p : String × Primitive α} :
    p ∈ s.primitives.toList.filter (fun p => p.2.visible) ↔ s.Presents p.1 p.2 := by
  rw [List.mem_filter, Std.ExtTreeMap.mem_toList_iff_getElem?_eq_some]
  exact ⟨fun h => ⟨h.1, h.2⟩, fun h => ⟨h.found, h.visible⟩⟩

/-- What is presented after a primitive was put on a surface is that primitive
    or was presented before. -/
theorem Presents.of_put {id name : String} {p q : Primitive α} (h : (s.put id p).Presents name q) :
    q = p ∨ s.Presents name q := by
  have hfound : (s.primitives.insert id p)[name]? = some q := h.found
  rw [Std.ExtTreeMap.getElem?_insert] at hfound
  split at hfound
  · exact .inl (Option.some.inj hfound).symm
  · exact .inr ⟨hfound, h.visible⟩

/-- What is visible on a surface, in the order of the ids, is told by the
    visible primitives alone. Both lists are sorted by id and have the same
    members, so they are one. -/
theorem visible_eq (h : ∀ id p, t.Presents id p ↔ s.Presents id p) :
    t.primitives.toList.filter (fun p => p.2.visible) = s.primitives.toList.filter fun p => p.2.visible := by
  have hordered (u : Surface α) :
      (u.primitives.toList.filter fun p => p.2.visible).Pairwise fun p q => p.1 < q.1 :=
    (pairwise_toList u.primitives).filter _
  have hnodup (u : Surface α) : (u.primitives.toList.filter fun p => p.2.visible).Nodup :=
    List.Pairwise.imp (fun hlt => ne_of_apply_ne Prod.fst hlt.ne) (hordered u)
  have hperm := (List.perm_ext_iff_of_nodup (hnodup t) (hnodup s)).mpr fun p => by
    rw [mem_visible, mem_visible, h]
  exact hperm.eq_of_pairwise (fun p q _ _ hlt hgt => (lt_asymm hlt hgt).elim) (hordered t) (hordered s)

end Visible

variable {s : Surface ℝ}

/-- The bounds are made by joining what the visible primitives take up, from the
    empty rectangle on. -/
theorem bounds_eq (s : Surface ℝ) : s.bounds =
    ((s.primitives.toList.filter fun p => p.2.visible).map
      fun p => p.2.shape.bounds).foldl Rect.union Rect.zero := by
  rw [bounds, List.foldl_map]

/-- What covers the bounds of a surface is what covers the extent of every
    visible primitive. No visible shape may have a negative side, which shapes
    drawn by a diagram never have. -/
theorem coversExtent_bounds_iff (hvisible : ∀ id p, s.Presents id p → p.shape.bounds.Nonneg) (c : Rect ℝ) :
    c.CoversExtent s.bounds ↔ ∀ id p, s.Presents id p → c.CoversExtent p.shape.bounds := by
  rw [bounds_eq, (Rect.zero_isPoint.nonneg.foldl_union _ ?_).2]
  · simp only [List.forall_mem_map, mem_visible, Prod.forall]
    exact and_iff_right (absurd Rect.zero_isPoint)
  · simp only [List.forall_mem_map, mem_visible, Prod.forall]
    exact hvisible

/-- What the bounds of a surface are. -/
structure Bounded (s : Surface ℝ) (r : Rect ℝ) : Prop where
  /-- They cover every visible primitive that is no single point. -/
  covers : ∀ id p, s.Presents id p → ¬ p.shape.bounds.IsPoint → r.Covers p.shape.bounds
  /-- Every rectangle that does so covers them, if there is such a primitive. -/
  least : ∀ c : Rect ℝ, (∀ id p, s.Presents id p → ¬ p.shape.bounds.IsPoint → c.Covers p.shape.bounds) →
    (∃ id p, s.Presents id p ∧ ¬ p.shape.bounds.IsPoint) → c.Covers r
  /-- They are the same on every surface with the same visible primitives. -/
  visible : ∀ t : Surface ℝ, (∀ id p, t.Presents id p ↔ s.Presents id p) → t.bounds = r
  /-- A visible line, path or polygon that does not come down to one point runs
      through no point outside. -/
  contains : ∀ id p, s.Presents id p →
    (∃ q ∈ p.shape.controlPoints, ∃ q' ∈ p.shape.controlPoints, q ≠ q') →
      ∀ q ∈ p.shape.controlPoints, r.contains q

/-- The bounds of a surface are the least rectangle around its visible
    primitives, where a primitive that takes up a single point counts for
    nothing at any place in the order. This is in exact arithmetic, in which a
    side is as long as its ends are apart. -/
theorem bounded_bounds (s : Surface ℝ) (hvisible : ∀ id p, s.Presents id p → p.shape.bounds.Nonneg) :
    s.Bounded s.bounds := by
  have hcovers := (coversExtent_bounds_iff hvisible s.bounds).mp fun _ => .refl _
  constructor
  · exact hcovers
  · intro c hc ⟨id, p, hp, hextent⟩
    have hbounds : ¬ s.bounds.IsPoint := (hcovers id p hp hextent).not_isPoint (hvisible id p hp) hextent
    exact (coversExtent_bounds_iff hvisible c).mpr hc hbounds
  · intro t ht
    rw [bounds_eq, bounds_eq, visible_eq ht]
  · intro id p hp hmany q hq
    obtain ⟨hextent, hwithin⟩ := Shape.contains_bounds hq hmany
    exact (hcovers id p hp hextent).contains hwithin

/-- A level line, a box, a dot between the two and a hidden box that is wider
    than everything else. -/
theorem bounded_bounds_level_dot :
    let paint : Paint ℝ := .plain "" ""
    let s := (((({} : Surface ℝ).put "dot" ⟨.rect ⟨70, 70, 0, 0⟩, paint, 0, true⟩).put "level"
      ⟨.line [⟨0, 10⟩, ⟨30, 10⟩], paint, 0, true⟩).put "hidden"
      ⟨.rect ⟨0, 0, 900, 900⟩, paint, 0, false⟩).put "box" ⟨.rect ⟨-20, 20, 40, 40⟩, paint, 0, true⟩
    (∀ id p, s.Presents id p → p.shape.bounds.Nonneg) ∧ s.Bounded s.bounds := by
  intro paint s
  have hvisible (id : String) (p : Primitive ℝ) (hp : s.Presents id p) : p.shape.bounds.Nonneg := by
    obtain rfl | hp := hp.of_put
    · constructor <;> norm_num [Shape.bounds]
    obtain rfl | hp := hp.of_put
    · exact absurd hp.visible Bool.false_ne_true
    obtain rfl | hp := hp.of_put
    · constructor <;> norm_num [Shape.bounds, boundsOf, Scalar.lesser, Scalar.greater]
    obtain rfl | hp := hp.of_put
    · constructor <;> norm_num [Shape.bounds]
    · have hfound := hp.found
      cases hfound
  exact ⟨hvisible, bounded_bounds s hvisible⟩

end Surface

end LiveDiagram
