import LiveDiagram.Plane.Route
import LiveDiagram.Proofs.Chart.Rects
import LiveDiagram.Proofs.Number.Exact

namespace LiveDiagram

variable {α : Type}

namespace Scalar

section Checked

variable [Scalar α]

/-- The quotient, unless the divisor is zero. -/
def divide? (a b : α) : Option α :=
  if b == 0 then none else some (a / b)

/-- The scalar moved into an interval, unless the interval is empty. -/
def clamp? (a lo hi : α) : Option α :=
  if hi < lo then none else some (clamp a lo hi)

theorem divide?_of_ne {a b : α} (h : (b == 0) = false) : divide? a b = some (a / b) := by
  rw [divide?, h, if_neg Bool.false_ne_true]

/-- A quotient that passed the check is the quotient without it. -/
theorem divide?_eq_some {a b c : α} (h : divide? a b = some c) : a / b = c := by
  unfold divide? at h
  split at h
  · cases h
  · exact Option.some.inj h

/-- A value that was moved into an interval under the check is the value moved
    without it. -/
theorem clamp?_eq_some {a lo hi c : α} (h : clamp? a lo hi = some c) : clamp a lo hi = c := by
  unfold clamp? at h
  split at h
  · cases h
  · exact Option.some.inj h

end Checked

section Exact

theorem clamp?_real {a lo hi : ℝ} (h : lo ≤ hi) : clamp? a lo hi = some (clamp a lo hi) :=
  if_neg h.not_gt

end Exact

end Scalar

open Scalar

namespace Rect

/-- A side of a rectangle. -/
inductive Side where
  | left
  | right
  | top
  | bottom
  deriving DecidableEq, Repr

/-- The point lies on that side of the rectangle, corners included. -/
def OnSide (r : Rect ℝ) (p : Point ℝ) : Side → Prop
  | .left => p.x = r.left ∧ r.top ≤ p.y ∧ p.y ≤ r.bottom
  | .right => p.x = r.right ∧ r.top ≤ p.y ∧ p.y ≤ r.bottom
  | .top => p.y = r.top ∧ r.left ≤ p.x ∧ p.x ≤ r.right
  | .bottom => p.y = r.bottom ∧ r.left ≤ p.x ∧ p.x ≤ r.right

/-- The point lies on the border of the rectangle. -/
def OnBorder (r : Rect ℝ) (p : Point ℝ) : Prop :=
  ∃ side, r.OnSide p side

/-- The side to which the greater of the two distances of the point from the
    center leads. Equal distances lead to the top or the bottom. -/
def Faces (r : Rect ℝ) (p : Point ℝ) : Side → Prop
  | .left => |p.y - r.center.y| < |p.x - r.center.x| ∧ p.x < r.center.x
  | .right => |p.y - r.center.y| < |p.x - r.center.x| ∧ r.center.x < p.x
  | .top => |p.x - r.center.x| ≤ |p.y - r.center.y| ∧ p.y < r.center.y
  | .bottom => |p.x - r.center.x| ≤ |p.y - r.center.y| ∧ r.center.y < p.y

/-- The point is not too near to the center of the rectangle to have a direction
    from there. -/
def Clear (r : Rect ℝ) (p : Point ℝ) : Prop :=
  0.1 ≤ |p.x - r.center.x| ∨ 0.1 ≤ |p.y - r.center.y|

section Checked

variable [Scalar α]

/-- How far along a side the line to a point crosses it, from the middle of the
    side. The point is `along` and `across` from the center, and the side is
    `depth` off the center and `reach` long in each direction. -/
def crossing? (depth along across reach : α) : Option α :=
  (divide? (depth * along) (abs across)).bind fun offset => clamp? offset (-reach) reach

/-- Where the rectangle has a point on its border towards a target, as far as no
    divisor is zero and no interval is empty on the way. -/
def borderPoint? (r : Rect α) (target : Point α) : Option (Point α) :=
  let c := r.center
  let dx := target.x - c.x
  let dy := target.y - c.y
  if abs dx < Layout.centerTolerance ∧ abs dy < Layout.centerTolerance then
    some c
  else if abs dy < abs dx then
    (crossing? (half r.width) dy dx (half r.height)).map fun offset =>
      ⟨if 0 < dx then r.right else r.left, c.y + offset⟩
  else
    (crossing? (half r.height) dx dy (half r.width)).map fun offset =>
      ⟨c.x + offset, if 0 < dy then r.bottom else r.top⟩

/-- The checks on the way to a crossing change nothing in it where they pass. -/
theorem crossing?_eq_some {depth along across reach offset : α}
    (h : crossing? depth along across reach = some offset) :
    clamp (depth * along / abs across) (-reach) reach = offset := by
  obtain ⟨quotient, hquotient, hclamp⟩ := Option.bind_eq_some_iff.mp h
  obtain rfl := divide?_eq_some hquotient
  exact clamp?_eq_some hclamp

/-- What is computed with all checks is what is computed without them. So it is
    enough to show that the checks pass, and the program need not make them. -/
theorem borderPoint?_eq_some {r : Rect α} {target p : Point α} (h : r.borderPoint? target = some p) :
    r.borderPoint target = p := by
  unfold borderPoint? at h
  unfold borderPoint
  dsimp only at h ⊢
  split
  · rw [if_pos ‹_›] at h
    exact Option.some.inj h
  · rw [if_neg ‹_›] at h
    split
    · rw [if_pos ‹_›] at h
      obtain ⟨offset, hoffset, rfl⟩ := Option.map_eq_some_iff.mp h
      rw [crossing?_eq_some hoffset]
    · rw [if_neg ‹_›] at h
      obtain ⟨offset, hoffset, rfl⟩ := Option.map_eq_some_iff.mp h
      rw [crossing?_eq_some hoffset]

end Checked

section Exact

variable {r : Rect ℝ} {p : Point ℝ}

/-- Where the line has a direction across the side and the side has a length,
    the crossing is computed without a failing check and lies on the side. -/
theorem crossing?_real (depth along : ℝ) {across reach : ℝ} (hacross : across ≠ 0) (hreach : 0 < reach) :
    ∃ offset, crossing? depth along across reach = some offset ∧ -reach ≤ offset ∧ offset ≤ reach := by
  have hinterval : -reach ≤ reach := by linarith
  refine ⟨clamp (depth * along / |across|) (-reach) reach, ?_, clamp_mem hinterval⟩
  rw [crossing?, abs_real, divide?_of_ne (by simpa using hacross), Option.bind_some, clamp?_real hinterval]

/-- Towards a target that is clear of its center a rectangle has a point on the
    side that the target faces, and nothing fails when it is computed. The
    greater of the two distances is the divisor, and a clear target makes it
    more than zero. -/
theorem borderPoint?_onSide (hwidth : 0 < r.width) (hheight : 0 < r.height) (hp : r.Clear p) :
    ∃ q side, r.borderPoint? p = some q ∧ r.Faces p side ∧ r.OnSide q side := by
  have hfar : ¬ (|p.x - r.center.x| < 0.1 ∧ |p.y - r.center.y| < 0.1) := by
    rintro ⟨hx, hy⟩
    exact hp.elim hx.not_ge hy.not_ge
  unfold borderPoint?
  simp only [abs_real, centerTolerance_real, half_real, zero_real, if_neg hfar]
  by_cases hdominant : |p.y - r.center.y| < |p.x - r.center.x|
  · have hdx : p.x - r.center.x ≠ 0 := abs_pos.mp ((abs_nonneg _).trans_lt hdominant)
    have hreach : 0 < r.height * 2⁻¹ := by positivity
    obtain ⟨offset, hoffset, hlow, hhigh⟩ := crossing?_real (r.width * 2⁻¹) (p.y - r.center.y) hdx hreach
    have hcenter : r.center.y = r.y + r.height * 2⁻¹ := by simp [center]
    have hextent : r.top ≤ r.center.y + offset ∧ r.center.y + offset ≤ r.bottom := by
      constructor <;> rw [hcenter] <;> simp only [top, bottom] <;> linarith
    rw [if_pos hdominant, hoffset]
    rcases hdx.lt_or_gt with hleft | hright
    · exact ⟨_, .left, rfl, ⟨hdominant, sub_neg.mp hleft⟩, if_neg hleft.not_gt, hextent⟩
    · exact ⟨_, .right, rfl, ⟨hdominant, sub_pos.mp hright⟩, if_pos hright, hextent⟩
  · have hdominant' := not_lt.mp hdominant
    have hdy : p.y - r.center.y ≠ 0 := by
      intro hzero
      rw [hzero, abs_zero] at hdominant' hfar
      exact hfar ⟨by linarith, by norm_num⟩
    have hreach : 0 < r.width * 2⁻¹ := by positivity
    obtain ⟨offset, hoffset, hlow, hhigh⟩ := crossing?_real (r.height * 2⁻¹) (p.x - r.center.x) hdy hreach
    have hcenter : r.center.x = r.x + r.width * 2⁻¹ := by simp [center]
    have hextent : r.left ≤ r.center.x + offset ∧ r.center.x + offset ≤ r.right := by
      constructor <;> rw [hcenter] <;> simp only [left, right] <;> linarith
    rw [if_neg hdominant, hoffset]
    rcases hdy.lt_or_gt with htop | hbottom
    · exact ⟨_, .top, rfl, ⟨hdominant', sub_neg.mp htop⟩, if_neg htop.not_gt, hextent⟩
    · exact ⟨_, .bottom, rfl, ⟨hdominant', sub_pos.mp hbottom⟩, if_pos hbottom, hextent⟩

/-- Towards a target that is clear of its center a rectangle with two sides has
    a point on its border. Nearer than that, the center itself is given. -/
theorem borderPoint_onBorder (hwidth : 0 < r.width) (hheight : 0 < r.height) (hp : r.Clear p) :
    r.OnBorder (r.borderPoint p) := by
  obtain ⟨q, side, hq, -, hside⟩ := borderPoint?_onSide hwidth hheight hp
  rw [borderPoint?_eq_some hq]
  exact ⟨side, hside⟩

/-- A point within the rectangle is not on its border, whichever side is
    meant. -/
theorem not_onBorder_of_inside (hx : r.left < p.x ∧ p.x < r.right) (hy : r.top < p.y ∧ p.y < r.bottom) :
    ¬ r.OnBorder p := by
  rintro ⟨side, hside⟩
  cases side with
  | left => exact hx.1.ne' hside.1
  | right => exact hx.2.ne hside.1
  | top => exact hy.1.ne' hside.1
  | bottom => exact hy.2.ne hside.1

theorem center_shift (r : Rect ℝ) (step : Point ℝ) : (r.shift step).center = r.center + step := by
  refine congrArg₂ Point.mk ?_ ?_
  · exact add_right_comm ..
  · exact add_right_comm ..

/-- A point on the border stays there when it is moved along with the
    rectangle. -/
theorem OnBorder.shift (h : r.OnBorder p) (step : Point ℝ) :
    (r.shift step).OnBorder (p + step) := by
  obtain ⟨side, hside⟩ := h
  refine ⟨side, ?_⟩
  have hleft : (r.shift step).left = r.left + step.x := rfl
  have hright : (r.shift step).right = r.right + step.x := add_right_comm ..
  have htop : (r.shift step).top = r.top + step.y := rfl
  have hbottom : (r.shift step).bottom = r.bottom + step.y := add_right_comm ..
  have hx : (p + step).x = p.x + step.x := rfl
  have hy : (p + step).y = p.y + step.y := rfl
  cases side <;> simp only [OnSide, hleft, hright, htop, hbottom, hx, hy] at hside ⊢ <;>
    exact ⟨by rw [hside.1], add_le_add_left hside.2.1 _, add_le_add_left hside.2.2 _⟩

/-- The target as seen from the center is the same after both are moved, so the
    point of the border moves along. Nothing is asked of the rectangle or the
    target here. -/
theorem borderPoint_shift (r : Rect ℝ) (p step : Point ℝ) :
    (r.shift step).borderPoint (p + step) = r.borderPoint p + step := by
  have hx : (p + step).x - (r.shift step).center.x = p.x - r.center.x := by
    rw [center_shift]
    exact add_sub_add_right_eq_sub ..
  have hy : (p + step).y - (r.shift step).center.y = p.y - r.center.y := by
    rw [center_shift]
    exact add_sub_add_right_eq_sub ..
  have hright : (r.shift step).right = r.right + step.x := add_right_comm ..
  have hbottom : (r.shift step).bottom = r.bottom + step.y := add_right_comm ..
  unfold borderPoint
  simp only [hx, hy, hright, hbottom]
  split
  · exact center_shift r step
  · split
    · refine congrArg₂ Point.mk ?_ ?_
      · split <;> rfl
      · rw [center_shift]
        exact add_right_comm ..
    · refine congrArg₂ Point.mk ?_ ?_
      · rw [center_shift]
        exact add_right_comm ..
      · split <;> rfl

/-- The point of the border towards a target that is clear of the center:
    nothing fails when it is computed, it lies on the side that the target
    faces, and it moves along when the rectangle and the target are moved. -/
theorem borderPoint_spec (hwidth : 0 < r.width) (hheight : 0 < r.height) (hp : r.Clear p) :
    r.borderPoint? p = some (r.borderPoint p) ∧
      (∃ side, r.Faces p side ∧ r.OnSide (r.borderPoint p) side) ∧
      ∀ step, (r.shift step).borderPoint (p + step) = r.borderPoint p + step := by
  obtain ⟨q, side, hq, hfaces, hside⟩ := borderPoint?_onSide hwidth hheight hp
  rw [borderPoint?_eq_some hq]
  exact ⟨hq, ⟨side, hfaces, hside⟩, fun step => by rw [borderPoint_shift, borderPoint?_eq_some hq]⟩

/-- A wide rectangle and a target at equal distances to the left of and below
    its center, so the bottom has the point. -/
theorem borderPoint_spec_diagonal :
    (⟨0, 0, 100, 50⟩ : Rect ℝ).borderPoint? ⟨10, 65⟩ =
      some ((⟨0, 0, 100, 50⟩ : Rect ℝ).borderPoint ⟨10, 65⟩) ∧
      (∃ side, (⟨0, 0, 100, 50⟩ : Rect ℝ).Faces ⟨10, 65⟩ side ∧
        (⟨0, 0, 100, 50⟩ : Rect ℝ).OnSide ((⟨0, 0, 100, 50⟩ : Rect ℝ).borderPoint ⟨10, 65⟩) side) ∧
      ∀ step, ((⟨0, 0, 100, 50⟩ : Rect ℝ).shift step).borderPoint (⟨10, 65⟩ + step) =
        (⟨0, 0, 100, 50⟩ : Rect ℝ).borderPoint ⟨10, 65⟩ + step := by
  refine borderPoint_spec (by norm_num) (by norm_num) (.inl ?_)
  simp only [center, half_real]
  norm_num

end Exact

end Rect

end LiveDiagram
