import LiveDiagram.Number.Binary
import LiveDiagram.Number.Scalar

namespace LiveDiagram

instance : Scalar Float where
  decLt _ _ := inferInstance
  decLe _ _ := inferInstance
  ofNat := Float.ofNat
  ofNumeral := Binary.ofNumeral
  isFinite := Float.isFinite
  round := Float.round
  ceil := Float.ceil
  floor := Float.floor
  bound := Binary.natBound
  hypot := Binary.hypot
  atan2 := Float.atan2
  cos := Float.cos
  sin := Float.sin
  pi := 3.141592653589793

instance : Scalar Float32 where
  decLt _ _ := inferInstance
  decLe _ _ := inferInstance
  ofNat := Float32.ofNat
  ofNumeral n := (Binary.ofNumeral n).toFloat32
  isFinite := Float32.isFinite
  round := Float32.round
  ceil := Float32.ceil
  floor := Float32.floor
  bound x := Binary.natBound x.toFloat
  hypot x y := (Binary.hypot x.toFloat y.toFloat).toFloat32
  atan2 := Float32.atan2
  cos := Float32.cos
  sin := Float32.sin
  pi := 3.141592653589793

/-- Scalars of the plane that have neighbours among those of the screen: the
    plane computes with double precision, the screen with single precision. -/
class Narrowing (α β : Type) where
  /-- The nearest scalar of the screen. -/
  narrow : α → β
  /-- The scalar of the plane with the same value. -/
  widen : β → α

instance : Narrowing Float Float32 where
  narrow := Float.toFloat32
  widen := Float32.toFloat

end LiveDiagram
