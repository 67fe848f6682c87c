namespace LiveDiagram.Text

/-- A blank is what trimming removes: a space, a tab, a carriage return or a
    line feed. -/
def isBlank (c : Char) : Bool :=
  c == ' ' || c == '\t' || c == '\r' || c == '\n'

/-- White space between the parts of a statement: a blank, a vertical tab or a
    form feed. -/
def isSpace (c : Char) : Bool :=
  isBlank c || c == '\x0b' || c == '\x0c'

/-- A word character: an ASCII letter or digit, or an underscore. A letter
    outside ASCII is never part of a word, and is neither blank nor space. -/
def isWordChar (c : Char) : Bool :=
  c.isAlphanum || c == '_'

/-- A character that ends a line wherever it stands. -/
def isLineBreak (c : Char) : Bool :=
  c == '\r' || c == '\n'

/-- Drops the longest run of characters in the class from the end. -/
def dropTrailing (p : Char → Bool) (s : List Char) : List Char :=
  (s.reverse.dropWhile p).reverse

/-- Drops the longest runs of characters in the class from both ends. -/
def strip (p : Char → Bool) (s : List Char) : List Char :=
  dropTrailing p (s.dropWhile p)

/-- The text without the blanks at its ends. -/
def trim (s : List Char) : List Char :=
  strip isBlank s

/-- The text in lower case; only ASCII letters have one. -/
def lower (s : List Char) : List Char :=
  s.map Char.toLower

/-- What follows `start`, if the text starts with it. -/
def after? : (start s : List Char) → Option (List Char)
  | [], s => some s
  | _ :: _, [] => none
  | a :: start, c :: s => if a = c then after? start s else none

/-- What follows `start`, if the text starts with it up to the case of ASCII
    letters. -/
def afterAnyCase? : (start s : List Char) → Option (List Char)
  | [], s => some s
  | _ :: _, [] => none
  | a :: start, c :: s => if a.toLower = c.toLower then afterAnyCase? start s else none

/-- The text up to its first null character, which is all that some readers of a
    text see of it. -/
def untilNull (s : String) : String :=
  String.ofList (s.toList.takeWhile (· != '\x00'))

/-- Whether `part` stands somewhere in the text. -/
def occursIn (part : List Char) : List Char → Bool
  | [] => part.isEmpty
  | c :: s => (after? part (c :: s)).isSome || occursIn part s

end LiveDiagram.Text
