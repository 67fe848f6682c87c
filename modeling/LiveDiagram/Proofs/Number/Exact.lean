import LiveDiagram.Layout.Placement
import LiveDiagram.Number.Double
import LiveDiagram.Proofs.Number.Span
import Mathlib.Analysis.SpecialFunctions.Complex.Arg
import Mathlib.Analysis.SpecialFunctions.Trigonometric.Basic

namespace LiveDiagram

namespace Numeral

/-- The real number that was written. What is no number, or an infinite one, is
    read as zero. -/
noncomputable def real : Numeral → ℝ
  | decimal negative mantissa exponent =>
    (if negative then -1 else 1) * mantissa * (10 : ℝ) ^ exponent
  | binary negative mantissa exponent =>
    (if negative then -1 else 1) * mantissa * (2 : ℝ) ^ exponent
  | infinite _ | notANumber => 0

end Numeral

noncomputable instance : Scalar ℝ where
  toAdd := inferInstance
  toSub := inferInstance
  toMul := inferInstance
  toDiv := inferInstance
  toNeg := inferInstance
  toLT := inferInstance
  toLE := inferInstance
  beq a b := decide (a = b)
  decLt _ _ := inferInstance
  decLe _ _ := inferInstance
  ofNat := Nat.cast
  ofNumeral := Numeral.real
  isFinite _ := true
  round x := if x < 0 then -(⌊-x + 1 / 2⌋ : ℝ) else ⌊x + 1 / 2⌋
  ceil x := ⌈x⌉
  floor x := ⌊x⌋
  bound x := ⌈x⌉₊
  hypot x y := √(x ^ 2 + y ^ 2)
  atan2 y x := Complex.arg ⟨x, y⟩
  cos := Real.cos
  sin := Real.sin
  pi := Real.pi

/-- Exact scalars of the plane are those of the screen. -/
instance : Narrowing ℝ ℝ where
  narrow x := x
  widen x := x

namespace Scalar

@[simp] theorem zero_real : (instOfNat 0 : OfNat ℝ 0).ofNat = 0 :=
  Nat.cast_zero

@[simp] theorem one_real : (instOfNat 1 : OfNat ℝ 1).ofNat = 1 :=
  Nat.cast_one

@[simp] theorem ofNat_real (n : Nat) : (Scalar.ofNat n : ℝ) = n :=
  rfl

@[simp] theorem beq_real (a b : ℝ) : (a == b) = decide (a = b) :=
  rfl

/-- A numeral for a scalar is the real number of that name. -/
@[simp] theorem numeral_real (n : Nat) [n.AtLeastTwo] :
    (instOfNat n : OfNat ℝ n).ofNat = (OfNat.ofNat n : ℝ) :=
  rfl

/-- Taking away the sign is the absolute value of real numbers. -/
@[simp] theorem abs_real (a : ℝ) : abs a = |a| := by
  unfold abs
  simp only [zero_real]
  split
  · rw [abs_of_neg ‹_›]
  · rw [abs_of_nonneg (not_lt.mp ‹_›)]

@[simp] theorem half_real (a : ℝ) : half a = a * 2⁻¹ := by
  simp [half]

@[simp] theorem centerTolerance_real : (Layout.centerTolerance : ℝ) = 0.1 := by
  simp only [Layout.centerTolerance, one_real, numeral_real]
  norm_num

@[simp] theorem minNodeSize_real : (Layout.minNodeSize : ℝ) = 50 :=
  rfl

theorem nodeRect_real : (Layout.nodeRect 0 .topDown : Rect ℝ) = ⟨0, 0, 160, 60⟩ := by
  simp [Layout.nodeRect, Direction.isHorizontal, Layout.nodesPerRow, Layout.nodeWidth, Layout.nodeHeight]

/-- A scalar that is moved into an interval lies in it. The interval must not be
    empty: otherwise there is nowhere to move it to. -/
theorem clamp_mem {a lo hi : ℝ} (h : lo ≤ hi) : lo ≤ clamp a lo hi ∧ clamp a lo hi ≤ hi := by
  unfold clamp
  split
  · exact ⟨le_rfl, h⟩
  · split
    · exact ⟨h, le_rfl⟩
    · exact ⟨not_lt.mp ‹_›, not_lt.mp ‹_›⟩

/-- Real numbers are ordered, so all that is said of ordered scalars holds of
    them. -/
theorem strictOrder_real : StrictOrder ℝ where
  irrefl := lt_irrefl
  trans := lt_trans

/-- Laws of exact scalars: equality is tested as such, a step of no length leads
    nowhere, and the order is transitive, with all natural numbers but zero
    positive. -/
structure Exact (α : Type) [Scalar α] : Prop where
  beq_iff : ∀ a b : α, (a == b) = true ↔ a = b
  add_sub_self : ∀ a b : α, a + (b - b) = a
  lt_trans : ∀ {a b c : α}, a < b → b < c → a < c
  lt_of_lt_of_le : ∀ {a b c : α}, a < b → b ≤ c → a < c
  ofNat_pos : ∀ n : Nat, (0 : α) < ofNat (n + 1)

/-- Real numbers are exact. With them as scalars every operation is the one that
    floating-point numbers round, and what is a matter of geometry alone is
    stated for them. -/
theorem exact_real : Exact ℝ where
  beq_iff a b := by simp
  add_sub_self a b := by simp
  lt_trans := lt_trans
  lt_of_lt_of_le := lt_of_lt_of_le
  ofNat_pos n := by
    rw [zero_real, ofNat_real]
    exact Nat.cast_pos.mpr n.succ_pos

/-- Exact scalars on which a step from where another step led comes to one
    step. -/
structure ExactSteps (α : Type) [Scalar α] : Prop extends Exact α where
  add_sub_add_sub : ∀ a b c d : α, a + (b - c) + d - b = a + (d - c)

/-- On real numbers two steps come to one, since no step is rounded. -/
theorem exactSteps_real : ExactSteps ℝ where
  toExact := exact_real
  add_sub_add_sub a b c d := by ring

end Scalar

end LiveDiagram
