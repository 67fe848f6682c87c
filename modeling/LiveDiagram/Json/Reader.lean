import LiveDiagram.Json.Basic

namespace LiveDiagram.Json

open Text

variable {α : Type}

def isJsonSpace (c : Char) : Bool :=
  c == ' ' || c == '\t' || c == '\n' || c == '\r'

def skipJsonSpace (s : List Char) : List Char :=
  s.dropWhile isJsonSpace

/-- The code unit of four digits in base sixteen at the head of the text. -/
def codeUnit? (s : List Char) : Option (Nat × List Char) :=
  let digits := s.take 4
  if digits.length = 4 ∧ digits.all (Numeral.isDigitIn 16) then
    some (Numeral.ofDigits 16 digits, s.drop 4)
  else
    none

/-- The character of an escape after its `\u`: one code unit, or two that make
    up a pair. -/
def unicodeEscape? (s : List Char) : Option (Char × List Char) := do
  let (high, s) ← codeUnit? s
  if 0xD800 ≤ high ∧ high < 0xDC00 then
    let s ← after? ['\\', 'u'] s
    let (low, s) ← codeUnit? s
    if 0xDC00 ≤ low ∧ low < 0xE000 then
      pure (Char.ofNat (0x10000 + (high - 0xD800) * 0x400 + (low - 0xDC00)), s)
    else
      none
  else if 0xDC00 ≤ high ∧ high < 0xE000 then
    none
  else
    pure (Char.ofNat high, s)

/-- The character of an escape after its backslash. -/
def escape? (s : List Char) : Option (Char × List Char) :=
  match s with
  | 'u' :: s => unicodeEscape? s
  | '"' :: s => some ('"', s)
  | '\\' :: s => some ('\\', s)
  | '/' :: s => some ('/', s)
  | 'b' :: s => some ('\x08', s)
  | 'f' :: s => some ('\x0c', s)
  | 'n' :: s => some ('\n', s)
  | 'r' :: s => some ('\r', s)
  | 't' :: s => some ('\t', s)
  | _ => none

/-- The characters of a string after its opening quote. The bound is on their
    number. -/
def characters? : Nat → List Char → Option (List Char × List Char)
  | 0, _ => none
  | _, [] => none
  | bound + 1, c :: s =>
    if c = '"' then
      some ([], s)
    else if c = '\\' then do
      let (c, s) ← escape? s
      let (cs, s) ← characters? bound s
      pure (c :: cs, s)
    else if c.toNat < 0x20 then
      none
    else do
      let (cs, s) ← characters? bound s
      pure (c :: cs, s)

/-- A string at the head of the text. -/
def string? (s : List Char) : Option (String × List Char) := do
  let s ← after? ['"'] s
  let (cs, s) ← characters? (s.length + 1) s
  pure (String.ofList cs, s)

/-- The digits at the head of the text, of which there is at least one. -/
def digits? (s : List Char) : Option (List Char × List Char) :=
  match s.takeWhile (Numeral.isDigitIn 10) with
  | [] => none
  | ds => some (ds, s.dropWhile (Numeral.isDigitIn 10))

/-- The digits of an integer: a zero stands alone. -/
def wholeDigits? (s : List Char) : Option (List Char × List Char) :=
  match s with
  | '0' :: s => some (['0'], s)
  | s => digits? s

/-- The digits after a point; there need not be a point. -/
def fractionDigits? (s : List Char) : Option (List Char × List Char) :=
  match s with
  | '.' :: s => digits? s
  | s => some ([], s)

/-- The exponent of a number; there need not be one. -/
def exponent? (s : List Char) : Option (Int × List Char) :=
  match s with
  | [] => some (0, [])
  | c :: rest =>
    if c.toLower = 'e' then do
      let (negative, s) := Numeral.sign rest
      let (ds, s) ← digits? s
      let value := Numeral.ofDigits 10 ds
      pure (if negative then -value else value, s)
    else
      some (0, s)

/-- A number at the head of the text. -/
def numeral? (s : List Char) : Option (Numeral × List Char) := do
  let (negative, s) := match s with
    | '-' :: s => (true, s)
    | s => (false, s)
  let (whole, s) ← wholeDigits? s
  let (fraction, s) ← fractionDigits? s
  let (exponent, s) ← exponent? s
  pure (.decimal negative (Numeral.ofDigits 10 (whole ++ fraction)) (exponent - fraction.length), s)

mutual

/-- A value at the head of the text, after white space, by the grammar of RFC
    8259 with nothing added to it. What is left of the text is returned with it.
    The fuel bounds the number of values that can still follow, for which the
    length of the text is enough. -/
def value? (number : Numeral → α) : (fuel : Nat) → List Char → Option (Json α × List Char)
  | 0, _ => none
  | fuel + 1, s =>
    match skipJsonSpace s with
    | '{' :: s =>
      match skipJsonSpace s with
      | '}' :: s => some (obj [], s)
      | s => do
        let (members, s) ← members? number fuel s
        pure (obj members, s)
    | '[' :: s =>
      match skipJsonSpace s with
      | ']' :: s => some (arr [], s)
      | s => do
        let (items, s) ← items? number fuel s
        pure (arr items, s)
    | '"' :: s => (string? ('"' :: s)).map fun (t, s) => (str t, s)
    | s =>
      ((after? "null".toList s).map fun s => (null, s))
        <|> ((after? "true".toList s).map fun s => (bool true, s))
        <|> ((after? "false".toList s).map fun s => (bool false, s))
        <|> ((numeral? s).map fun (n, s) => (num (number n), s))

/-- The items of an array from the head of the text up to its closing bracket;
    there is at least one. -/
def items? (number : Numeral → α) : (fuel : Nat) → List Char → Option (List (Json α) × List Char)
  | 0, _ => none
  | fuel + 1, s => do
    let (item, s) ← value? number fuel s
    match skipJsonSpace s with
    | ']' :: s => pure ([item], s)
    | ',' :: s =>
      let (items, s) ← items? number fuel s
      pure (item :: items, s)
    | _ => none

/-- The members of an object from the head of the text up to its closing brace;
    there is at least one. -/
def members? (number : Numeral → α) :
    (fuel : Nat) → List Char → Option (List (String × Json α) × List Char)
  | 0, _ => none
  | fuel + 1, s => do
    let (key, s) ← string? (skipJsonSpace s)
    let s ← after? [':'] (skipJsonSpace s)
    let (value, s) ← value? number fuel s
    match skipJsonSpace s with
    | '}' :: s => pure ([(key, value)], s)
    | ',' :: s =>
      let (members, s) ← members? number fuel s
      pure ((key, value) :: members, s)
    | _ => none

end

/-- The value that makes up the whole text. Numbers are handed on as they are
    written. -/
def ofText? (number : Numeral → α) (text : String) : Option (Json α) := do
  let s := text.toList
  let (value, rest) ← value? number (2 * s.length + 1) s
  if (skipJsonSpace rest).isEmpty then some value else none

end LiveDiagram.Json
