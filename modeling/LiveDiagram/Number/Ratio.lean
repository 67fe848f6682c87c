namespace LiveDiagram.Ratio

/-- The integer nearest to `num / den`; of two that are equally near, the even
    one. Everything that turns an exact value into a number of limited
    precision, binary or decimal, goes through this function. -/
def round (num den : Nat) : Nat :=
  let q := num / den
  let twice := 2 * (num % den)
  if den < twice ∨ (twice = den ∧ q % 2 = 1) then q + 1 else q

/-- How many digits the number has in the base; zero has none. The first
    argument bounds the count. -/
def digitCount (base : Nat) : (bound n : Nat) → Nat
  | 0, _ => 0
  | _, 0 => 0
  | bound + 1, n => digitCount base bound (n / base) + 1

/-- The numerator and the denominator of the ratio times a power of the base. -/
def scale (base : Nat) (num den : Nat) : Int → Nat × Nat
  | .ofNat e => (num * Nat.pow base e, den)
  | .negSucc e => (num, den * Nat.pow base (e + 1))

/-- The exponent of the first digit of a positive ratio: the greatest `e` with
    `base ^ e ≤ num / den`, given how many digits both have in the base. -/
def leadingFrom (base : Nat) (num den numDigits denDigits : Nat) : Int :=
  let e : Int := (numDigits : Int) - denDigits
  let (n, d) := scale base num den (-e)
  if d ≤ n then e else e - 1

/-- The exponent of the first binary digit of a positive ratio. -/
def leadingBinary (num den : Nat) : Int :=
  leadingFrom 2 num den num.log2 den.log2

/-- The exponent of the first decimal digit of a positive ratio. -/
def leadingDecimal (num den : Nat) : Int :=
  leadingFrom 10 num den (digitCount 10 num.log2.succ num) (digitCount 10 den.log2.succ den)

/-- A positive ratio rounded to `digits` significant decimal digits: the digits
    as one number, and the exponent of the first of them. -/
def significant (digits : Nat) (num den : Nat) : Nat × Int :=
  let e := leadingDecimal num den
  let (n, d) := scale 10 num den (digits - 1 - e)
  let m := round n d
  if m = Nat.pow 10 digits then (Nat.pow 10 (digits - 1), e + 1) else (m, e)

end LiveDiagram.Ratio
