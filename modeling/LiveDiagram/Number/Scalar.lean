import LiveDiagram.Number.Numeral

namespace LiveDiagram

/-- The operations on the numbers that coordinates and lengths are made of. What
    computes on the plane is written once for any type of scalars: a program
    computes with floating-point numbers, and a statement about geometry can be
    made about exact ones. No laws are part of the class, so a number that
    compares with nothing falls through every test the same way. -/
class Scalar (α : Type) extends Add α, Sub α, Mul α, Div α, Neg α, LT α, LE α, BEq α where
  decLt : ∀ a b : α, Decidable (a < b)
  decLe : ∀ a b : α, Decidable (a ≤ b)
  ofNat : Nat → α
  /-- The scalar nearest to a written number. -/
  ofNumeral : Numeral → α
  /-- Whether the scalar is a number that can be written in digits. -/
  isFinite : α → Bool
  /-- The nearest integer; a half goes away from zero. -/
  round : α → α
  ceil : α → α
  floor : α → α
  /-- A natural number that is not less than the scalar, or zero if there is
      none. -/
  bound : α → Nat
  /-- The length of a vector, given its components. -/
  hypot : α → α → α
  /-- The angle of a vector in radians, given its second component and then its
      first. -/
  atan2 : α → α → α
  cos : α → α
  sin : α → α
  pi : α

namespace Scalar

variable {α : Type} [Scalar α]

instance (a b : α) : Decidable (a < b) := decLt a b

instance (a b : α) : Decidable (a ≤ b) := decLe a b

instance (priority := 50) (n : Nat) : OfNat α n := ⟨ofNat n⟩

/-- The scalar without its sign. -/
def abs (a : α) : α :=
  if a < 0 then -a else a

/-- The greater scalar, the first one unless it is less. -/
def greater (a b : α) : α :=
  if a < b then b else a

/-- The lesser scalar, the first one unless the second is less. -/
def lesser (a b : α) : α :=
  if b < a then b else a

/-- The scalar moved into the interval from `lo` to `hi`. -/
def clamp (a lo hi : α) : α :=
  if a < lo then lo else if hi < a then hi else a

/-- Half of the scalar. -/
def half (a : α) : α :=
  a * (1 / 2)

instance : Inhabited α := ⟨0⟩

end Scalar

end LiveDiagram
