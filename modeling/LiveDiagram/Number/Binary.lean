import LiveDiagram.Number.Numeral
import LiveDiagram.Number.Ratio

namespace LiveDiagram.Binary

/-- The least exponent of a double-precision number. -/
def minExponent : Int := -1074

/-- How many binary digits a double-precision number holds. -/
def precision : Nat := 53

/-- The number, negated if so wanted. -/
def signed (negative : Bool) (x : Float) : Float :=
  if negative then -x else x

/-- The number nearest to a ratio: it is rounded to an integer times the power
    of two that leaves as many digits as the precision, or as many as the least
    exponent leaves. A half goes to the even neighbour, and an exact value is
    rounded once and not at every step. -/
def ofRatio (negative : Bool) (num den : Nat) : Float :=
  if num = 0 then
    signed negative 0
  else
    let e := max (Ratio.leadingBinary num den - (precision - 1)) minExponent
    let (n, d) := Ratio.scale 2 num den (-e)
    signed negative ((Float.ofNat (Ratio.round n d)).scaleB e)

/-- The number nearest to the mantissa times a power of the base. An exponent
    beyond the range of all numbers, which `top` and `bottom` bound, need not be
    written out. -/
def ofScaled (base : Nat) (top bottom : Int) (negative : Bool) (mantissa : Nat) (exponent : Int) :
    Float :=
  let first := Ratio.digitCount base mantissa.log2.succ mantissa + exponent
  if mantissa = 0 ∨ first < bottom then
    signed negative 0
  else if top < first then
    signed negative (1 / 0)
  else
    let (n, d) := Ratio.scale base mantissa 1 exponent
    ofRatio negative n d

/-- The number nearest to a written one. -/
def ofNumeral : Numeral → Float
  | .decimal negative mantissa exponent => ofScaled 10 310 (-330) negative mantissa exponent
  | .binary negative mantissa exponent => ofScaled 2 1030 (-1080) negative mantissa exponent
  | .infinite negative => signed negative (1 / 0)
  | .notANumber => 0 / 0

/-- The first digit of the mantissa, which is not stored. -/
def hiddenBit : Nat := 4503599627370496

/-- The exact value of a number. -/
def toNumeral (x : Float) : Numeral :=
  let bits := x.toBits.toNat
  let negative := bits.testBit 63
  let field : Nat := (bits >>> 52) % 2048
  let fraction : Nat := bits % hiddenBit
  if field = 2047 then
    if fraction = 0 then .infinite negative else .notANumber
  else if field = 0 then
    .binary negative fraction minExponent
  else
    .binary negative (hiddenBit + fraction) ((field : Int) - 1075)

/-- A natural number that is not less than the number; zero for what has no such
    bound. -/
def natBound (x : Float) : Nat :=
  match toNumeral x with
  | .binary false mantissa exponent =>
    let (num, den) := Ratio.scale 2 mantissa 1 exponent
    num / den + 1
  | _ => 0

/-- The greatest integer whose square is at most `n`, searched downwards from an
    upper bound. -/
def sqrtFrom (n x : Nat) : Nat :=
  let y := (x + n / x) / 2
  if y < x then sqrtFrom n y else x
termination_by x

/-- The greatest integer whose square is at most `n`. -/
def sqrt (n : Nat) : Nat :=
  sqrtFrom n (Nat.pow 2 (n.log2 / 2 + 1))

/-- The number nearest to the square root of `n * 4 ^ e`. The root is computed
    with more digits than the precision; one digit more records whether it is
    exact, which is all that rounding asks. -/
def ofSqrt (n : Nat) (e : Int) : Float :=
  let extra := 2 * precision
  let scaled := n * Nat.pow 4 extra
  let root := sqrt scaled
  let marked := 2 * root + (if root * root = scaled then 0 else 1)
  let (num, den) := Ratio.scale 2 marked 1 (e - extra - 1)
  ofRatio false num den

/-- The length of the vector with these components. An infinite component makes
    it infinite. -/
def hypot (x y : Float) : Float :=
  match toNumeral x, toNumeral y with
  | .infinite _, _ => 1 / 0
  | _, .infinite _ => 1 / 0
  | .binary _ m e, .binary _ n f =>
    let low := min e f
    let a := m * Nat.pow 2 (e - low).toNat
    let b := n * Nat.pow 2 (f - low).toNat
    ofSqrt (a * a + b * b) low
  | _, _ => 0 / 0

end LiveDiagram.Binary
