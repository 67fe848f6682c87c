import LiveDiagram.Number.Numeral
import LiveDiagram.Number.Ratio

namespace LiveDiagram

namespace Numeral

/-- The absolute value as a ratio, and whether the number is negative. -/
def ratio? : Numeral → Option (Bool × Nat × Nat)
  | decimal negative mantissa exponent => some (negative, Ratio.scale 10 mantissa 1 exponent)
  | binary negative mantissa exponent => some (negative, Ratio.scale 2 mantissa 1 exponent)
  | _ => none

/-- The name of a value that has no digits. -/
def specialName : Numeral → String
  | infinite true => "-inf"
  | infinite false => "inf"
  | _ => "nan"

end Numeral

namespace Decimal

/-- The digits of a number, with zeros in front up to the given count. -/
def padded (count n : Nat) : List Char :=
  let digits := Nat.toDigits 10 n
  List.replicate (count - digits.length) '0' ++ digits

/-- A fraction after its point, or nothing if all its digits are zero. -/
def fractionText (digits : List Char) : List Char :=
  match Text.dropTrailing (· == '0') digits with
  | [] => []
  | digits => '.' :: digits

/-- The exponent with its sign and at least two digits. -/
def exponentText (e : Int) : List Char :=
  'e' :: (if e < 0 then '-' else '+') :: padded 2 e.natAbs

/-- Digits of which the first has the given exponent: positional notation for
    exponents from -4 to the number of digits, and otherwise a single digit
    before the point and the exponent. -/
def layout (digits : List Char) (e : Int) : List Char :=
  if e < -4 ∨ digits.length ≤ e then
    digits.take 1 ++ fractionText (digits.drop 1) ++ exponentText e
  else if e < 0 then
    '0' :: fractionText (List.replicate (-e - 1).toNat '0' ++ digits)
  else
    digits.take (e.toNat + 1) ++ fractionText (digits.drop (e.toNat + 1))

/-- The number with at most so many significant digits. Zeros at the end of a
    fraction are left out, and the point with them. -/
def general (digits : Nat) (n : Numeral) : String :=
  match n.ratio? with
  | none => n.specialName
  | some (_, 0, _) => "0"
  | some (negative, num, den) =>
    let (m, e) := Ratio.significant digits num den
    let text := layout (Nat.toDigits 10 m) e
    String.ofList (if negative then '-' :: text else text)

/-- The number with at most so many digits after the point. -/
def fixed (places : Nat) (n : Numeral) : String :=
  match n.ratio? with
  | none => n.specialName
  | some (negative, num, den) =>
    let unit := Nat.pow 10 places
    let m := Ratio.round (num * unit) den
    let text := Nat.toDigits 10 (m / unit) ++ fractionText (padded places (m % unit))
    String.ofList (if negative ∧ m ≠ 0 then '-' :: text else text)

end Decimal

end LiveDiagram
