import Mathlib.Tactic.FieldSimp
import LiveDiagram.Proofs.Number.Exact

namespace LiveDiagram

open Scalar

/-- The point on the line from one point to another, at a parameter that is zero
    at the first and one at the second. -/
def Point.along {α : Type} [Scalar α] (p q : Point α) (t : α) : Point α :=
  ⟨p.x + (q.x - p.x) * t, p.y + (q.y - p.y) * t⟩

namespace Point

variable {p q : Point ℝ}

/-- A line starts at the point that it is given by first. -/
theorem along_zero (p q : Point ℝ) : p.along q 0 = p := by
  simp [along]

/-- A line reaches the second of its points at the parameter one. -/
theorem along_one (p q : Point ℝ) : p.along q 1 = q := by
  simp [along]

/-- On the line through two points of a line, parameters are those of the line
    itself. The two points may be one, and then there is only one place to speak
    of. -/
theorem along_along (p q : Point ℝ) (a b t : ℝ) :
    (p.along q a).along (p.along q b) t = p.along q (a + (b - a) * t) := by
  simp only [along]
  congr 1 <;> ring

theorem distance_nonneg (p q : Point ℝ) : 0 ≤ p.distance q :=
  Real.sqrt_nonneg _

theorem eq_of_distance_eq_zero (h : p.distance q = 0) : p = q := by
  have hsquares : (p.x - q.x) ^ 2 + (p.y - q.y) ^ 2 = 0 := (Real.sqrt_eq_zero (by positivity)).mp h
  obtain ⟨hx, hy⟩ := (add_eq_zero_iff_of_nonneg (sq_nonneg _) (sq_nonneg _)).mp hsquares
  cases p
  cases q
  congr 1
  · exact sub_eq_zero.mp (sq_eq_zero_iff.mp hx)
  · exact sub_eq_zero.mp (sq_eq_zero_iff.mp hy)

/-- Distances on a line are differences of the parameters, measured by the
    points that the line is given by. -/
theorem distance_along (p q : Point ℝ) (a b : ℝ) :
    (p.along q b).distance (p.along q a) = |b - a| * q.distance p := by
  have hsquares : (p.x + (q.x - p.x) * b - (p.x + (q.x - p.x) * a)) ^ 2
      + (p.y + (q.y - p.y) * b - (p.y + (q.y - p.y) * a)) ^ 2
      = (b - a) ^ 2 * ((q.x - p.x) ^ 2 + (q.y - p.y) ^ 2) := by ring
  calc (p.along q b).distance (p.along q a)
      = √((b - a) ^ 2 * ((q.x - p.x) ^ 2 + (q.y - p.y) ^ 2)) := congrArg Real.sqrt hsquares
    _ = √((b - a) ^ 2) * √((q.x - p.x) ^ 2 + (q.y - p.y) ^ 2) := Real.sqrt_mul (sq_nonneg _) _
    _ = |b - a| * q.distance p := by rw [Real.sqrt_sq_eq_abs]; rfl

end Point

/-- A path leads straight on from `s` to `e`, at the pace of its arc length. -/
def Straight (path : ℝ → Point ℝ) (s e : ℝ) : Prop :=
  ∃ p q : Point ℝ, q.distance p = 1 ∧ ∀ u, s ≤ u → u ≤ e → path u = p.along q u

namespace Straight

variable {path : ℝ → Point ℝ} {s e : ℝ}

/-- A way of no length leads straight on, in whatever direction. -/
theorem refl (path : ℝ → Point ℝ) (s : ℝ) : Straight path s s := by
  refine ⟨⟨(path s).x - s, (path s).y⟩, ⟨(path s).x - s + 1, (path s).y⟩, ?_, fun u hsu hus => ?_⟩
  · simp [Point.distance, hypot]
  · rw [le_antisymm hus hsu]
    simp [Point.along]

theorem mono (h : Straight path s e) {s' e' : ℝ} (hs : s ≤ s') (he : e' ≤ e) : Straight path s' e' := by
  obtain ⟨p, q, hunit, hpath⟩ := h
  exact ⟨p, q, hunit, fun u hsu hue => hpath u (hs.trans hsu) (hue.trans he)⟩

/-- The chord of a straight way has every point of the way in its place. The way
    has a length, by which the parameters of the chord are measured. -/
theorem chord (h : Straight path s e) (hse : s < e) {u : ℝ} (hsu : s ≤ u) (hue : u ≤ e) :
    (path s).along (path e) ((u - s) / (e - s)) = path u := by
  obtain ⟨p, q, -, hpath⟩ := h
  have hne : e - s ≠ 0 := (sub_pos.mpr hse).ne'
  rw [hpath s le_rfl hse.le, hpath e hse.le le_rfl, hpath u hsu hue, Point.along_along,
    mul_div_cancel₀ _ hne, add_sub_cancel]

/-- A straight way is as long as the distance of its ends. -/
theorem distance_eq (h : Straight path s e) (hse : s ≤ e) : (path e).distance (path s) = e - s := by
  obtain ⟨p, q, hunit, hpath⟩ := h
  rw [hpath s le_rfl hse, hpath e hse le_rfl, Point.distance_along, hunit, mul_one,
    abs_of_nonneg (sub_nonneg.mpr hse)]

end Straight

namespace Polyline

/-- How long the way along a polyline is. -/
noncomputable def arcLength : List (Point ℝ) → ℝ
  | p :: q :: points => q.distance p + arcLength (q :: points)
  | [_] => 0
  | [] => 0

/-- The point of a polyline that is reached on the way of a given length from
    its start. -/
noncomputable def pointAt : List (Point ℝ) → ℝ → Point ℝ
  | p :: q :: points, u =>
    if u < q.distance p then p.along q (u / q.distance p) else pointAt (q :: points) (u - q.distance p)
  | [p], _ => p
  | [], _ => Point.zero

variable {p q : Point ℝ} {points : List (Point ℝ)}

theorem arcLength_nonneg (points : List (Point ℝ)) : 0 ≤ arcLength points := by
  fun_induction arcLength points with
  | case1 p q points ih => exact add_nonneg (q.distance_nonneg p) ih
  | case2 | case3 => exact le_rfl

/-- Behind the second corner the way goes on as the way of the rest. Corners
    that fall together are no exception, since the first of them is left at
    once. -/
theorem pointAt_add (p q : Point ℝ) (points : List (Point ℝ)) {u : ℝ} (hu : 0 ≤ u) :
    pointAt (p :: q :: points) (q.distance p + u) = pointAt (q :: points) u := by
  rw [pointAt, if_neg (by linarith), add_sub_cancel_left]

/-- Every polyline starts at its first corner, however many corners stand in
    that place. -/
@[simp] theorem pointAt_zero (p : Point ℝ) (points : List (Point ℝ)) : pointAt (p :: points) 0 = p := by
  induction points generalizing p with
  | nil => rfl
  | cons q points ih =>
    obtain hzero | hpos := (q.distance_nonneg p).eq_or_lt
    · have hcorner := pointAt_add p q points le_rfl
      rw [← hzero, add_zero, ih] at hcorner
      rw [hcorner, Point.eq_of_distance_eq_zero hzero.symm]
    · rw [pointAt, if_pos hpos, zero_div, Point.along_zero]

/-- The second corner is reached after the distance of the first two. -/
theorem pointAt_corner (p q : Point ℝ) (points : List (Point ℝ)) :
    pointAt (p :: q :: points) (q.distance p) = q := by
  have hcorner := pointAt_add p q points le_rfl
  rwa [add_zero, pointAt_zero] at hcorner

/-- Between the first two corners the way leads straight from the one to the
    other. They are apart here, so the way has a direction. -/
theorem pointAt_segment (hpos : 0 < q.distance p) {u : ℝ} (hu : u ≤ q.distance p) :
    pointAt (p :: q :: points) u = p.along q (u / q.distance p) := by
  obtain hlt | rfl := hu.lt_or_eq
  · rw [pointAt, if_pos hlt]
  · rw [pointAt_corner, div_self hpos.ne', Point.along_one]

/-- A path that takes the way of a polyline from `s` on is straight between the
    first two corners. Where these fall together there is no way between them,
    which counts as straight. -/
theorem straight_segment {path : ℝ → Point ℝ} {s : ℝ}
    (hpath : ∀ u, 0 ≤ u → path (s + u) = pointAt (p :: q :: points) u) :
    Straight path s (s + q.distance p) := by
  obtain hzero | hpos := (q.distance_nonneg p).eq_or_lt
  · rw [← hzero, add_zero]
    exact .refl path s
  · -- the line is given by its points at the distances zero and one from where the path would have its start
    refine ⟨p.along q (-s / q.distance p), p.along q ((1 - s) / q.distance p), ?_, fun u hsu hue => ?_⟩
    · rw [Point.distance_along, ← sub_div, sub_neg_eq_add, sub_add_cancel, abs_of_pos (one_div_pos.mpr hpos),
        one_div_mul_cancel hpos.ne']
    · have hplace := hpath (u - s) (sub_nonneg.mpr hsu)
      rw [add_sub_cancel, pointAt_segment hpos (by linarith)] at hplace
      rw [hplace, Point.along_along]
      congr 1
      field_simp
      ring

end Polyline

end LiveDiagram
