import LiveDiagram.Number.Numeral

namespace LiveDiagram

/-- A colour of three channels, each below 256. -/
structure Color where
  red : Nat
  green : Nat
  blue : Nat
  deriving DecidableEq, Repr, Inhabited

namespace Color

/-- The colour of these digits in base sixteen. -/
def ofDigits? : List Nat → Option Color
  | [r, g, b] => some ⟨r * 17, g * 17, b * 17⟩
  | [r, r', g, g', b, b'] => some ⟨r * 16 + r', g * 16 + g', b * 16 + b'⟩
  | _ => none

/-- The colour that the text denotes, written `#rrggbb`, or `#rgb` where each
    digit stands for two. -/
def ofText? (s : String) : Option Color :=
  match s.toList with
  | '#' :: digits => (digits.mapM Numeral.digit?).bind ofDigits?
  | _ => none

end Color

end LiveDiagram
