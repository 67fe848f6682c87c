import LiveDiagram.Json.Basic

namespace LiveDiagram.Json

variable {α : Type}

/-- A digit in base sixteen. -/
def hexDigit (n : Nat) : Char :=
  if n < 10 then Char.ofNat ('0'.toNat + n) else Char.ofNat ('a'.toNat + n - 10)

/-- A character of a string: quotes, backslashes and control characters are
    escaped, all else stands for itself. -/
def escaped (c : Char) : List Char :=
  if c = '"' then ['\\', '"']
  else if c = '\\' then ['\\', '\\']
  else if c.toNat < 0x20 then
    ['\\', 'u', '0', '0', hexDigit (c.toNat / 16), hexDigit (c.toNat % 16)]
  else [c]

/-- A string in quotes. -/
def quoted (s : String) : String :=
  "\"" ++ String.ofList (s.toList.flatMap escaped) ++ "\""

mutual

/-- The text of a value on one line. How a number is written is left to the
    caller. -/
def toText (number : α → String) : Json α → String
  | null => "null"
  | bool true => "true"
  | bool false => "false"
  | num x => number x
  | str s => quoted s
  | arr items => "[" ++ itemsText number items ++ "]"
  | obj members => "\x7b" ++ membersText number members ++ "\x7d"

/-- The texts of the items of an array, separated by commas. -/
def itemsText (number : α → String) : List (Json α) → String
  | [] => ""
  | [item] => toText number item
  | item :: items => toText number item ++ "," ++ itemsText number items

/-- The texts of the members of an object, separated by commas. -/
def membersText (number : α → String) : List (String × Json α) → String
  | [] => ""
  | [(key, value)] => quoted key ++ ":" ++ toText number value
  | (key, value) :: members =>
    quoted key ++ ":" ++ toText number value ++ "," ++ membersText number members

end

end LiveDiagram.Json
