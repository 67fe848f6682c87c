import LiveDiagram.Text.Basic

namespace LiveDiagram

open Text

/-- A number as it is written, before it is rounded to the numbers that a
    computation uses: exactly, as an integer times a power of ten or two. -/
inductive Numeral where
  /-- The mantissa times a power of ten, possibly negated. -/
  | decimal (negative : Bool) (mantissa : Nat) (exponent : Int)
  /-- The mantissa times a power of two, possibly negated. -/
  | binary (negative : Bool) (mantissa : Nat) (exponent : Int)
  | infinite (negative : Bool)
  | notANumber
  deriving DecidableEq, Repr, Inhabited

namespace Numeral

/-- The value of a digit in base sixteen. -/
def digit? (c : Char) : Option Nat :=
  if '0' ≤ c ∧ c ≤ '9' then some (c.toNat - '0'.toNat)
  else if 'a' ≤ c ∧ c ≤ 'f' then some (c.toNat - 'a'.toNat + 10)
  else if 'A' ≤ c ∧ c ≤ 'F' then some (c.toNat - 'A'.toNat + 10)
  else none

/-- Whether the character is a digit in the base. -/
def isDigitIn (base : Nat) (c : Char) : Bool :=
  (digit? c).any (· < base)

/-- The number that the digits denote. -/
def ofDigits (base : Nat) (digits : List Char) : Nat :=
  digits.foldl (fun n c => n * base + (digit? c).getD 0) 0

/-- A sign at the head of the text, and whether it is a minus sign. -/
def sign (s : List Char) : Bool × List Char :=
  match s with
  | '-' :: s => (true, s)
  | '+' :: s => (false, s)
  | s => (false, s)

/-- An exponent at the head of the text: the marker in either case, an optional
    sign and digits. A marker without digits is no exponent. -/
def exponent (marker : Char) (s : List Char) : Int :=
  match s with
  | [] => 0
  | c :: s =>
    let (negative, s) := sign s
    let value := ofDigits 10 (s.takeWhile (isDigitIn 10))
    if c.toLower = marker then (if negative then -value else value) else 0

/-- The digits before and after an optional point, with what follows them. -/
def pointed (base : Nat) (s : List Char) : List Char × List Char × List Char :=
  let whole := s.takeWhile (isDigitIn base)
  match s.dropWhile (isDigitIn base) with
  | '.' :: s => (whole, s.takeWhile (isDigitIn base), s.dropWhile (isDigitIn base))
  | s => (whole, [], s)

/-- A number in base ten at the head of the text. -/
def decimal? (negative : Bool) (s : List Char) : Option Numeral :=
  let (whole, fraction, rest) := pointed 10 s
  if (whole ++ fraction).isEmpty then
    none
  else
    some (.decimal negative (ofDigits 10 (whole ++ fraction))
      (exponent 'e' rest - fraction.length))

/-- A number in base sixteen at the head of the text, after its marker. The
    exponent is that of two. -/
def hexadecimal? (negative : Bool) (s : List Char) : Option Numeral := do
  let s ← afterAnyCase? ['0', 'x'] s
  let (whole, fraction, rest) := pointed 16 s
  if (whole ++ fraction).isEmpty then none
  pure (.binary negative (ofDigits 16 (whole ++ fraction))
    (exponent 'p' rest - 4 * fraction.length))

/-- The number at the head of the text, after white space and an optional sign.
    The longest number counts and what follows it is ignored, so `2px` is read
    as two; a text that starts with no number gives none. The text ends at its
    first null character. -/
def read? (s : List Char) : Option Numeral :=
  let (negative, s) := sign ((s.takeWhile (· != '\x00')).dropWhile isSpace)
  (afterAnyCase? "inf".toList s).map (fun _ => .infinite negative)
    <|> (afterAnyCase? "nan".toList s).map (fun _ => .notANumber)
    <|> hexadecimal? negative s
    <|> decimal? negative s

end Numeral

end LiveDiagram
