import LiveDiagram.Text.Basic

namespace LiveDiagram.Text

/-- The longest word at the head of the text, if there is one. -/
def word? (s : List Char) : Option (List Char × List Char) :=
  match s.takeWhile isWordChar with
  | [] => none
  | w => some (w, s.dropWhile isWordChar)

/-- The text without the white space at its head. -/
def skipSpaces (s : List Char) : List Char :=
  s.dropWhile isSpace

/-- The text without the white space at its head, of which there is some. -/
def skipSpaces? : List Char → Option (List Char)
  | [] => none
  | c :: s => if isSpace c then some (skipSpaces s) else none

/-- At least `least` characters of white space and then a part that satisfies
    `p`, which may itself hold white space. All white space is skipped if the
    remainder satisfies `p`; otherwise its last character counts as the start of
    the part, when enough white space is left without it. -/
def afterSpaces (least : Nat) (p : List Char → Bool) (s : List Char) : Option (List Char) :=
  let gap := s.takeWhile isSpace
  let part := s.dropWhile isSpace
  if least ≤ gap.length && p part then
    some part
  else
    match gap.getLast? with
    | none => none
    | some c => if least < gap.length && p (c :: part) then some (c :: part) else none

/-- Whether the text is not empty and has no line break. -/
def isFilledLine (s : List Char) : Bool :=
  !s.isEmpty && !s.any isLineBreak

/-- The rest of a line, after at least `least` characters of white space. -/
def restOfLine (least : Nat) (s : List Char) : Option (List Char) :=
  afterSpaces least isFilledLine s

/-- What is read at the first place of the text where something can be read. -/
def search {α : Type} (read : List Char → Option α) : List Char → Option α
  | [] => read []
  | c :: s =>
    match read (c :: s) with
    | some a => some a
    | none => search read s

/-- The text cut into the parts that `read` finds, from left to right and
    without overlap, and the characters between them. The count says how many
    characters at the head belong to the part found last. -/
def segmentsFrom {α : Type} (read : List Char → Option (α × List Char)) :
    Nat → List Char → List (Char ⊕ α)
  | _, [] => []
  | n + 1, _ :: s => segmentsFrom read n s
  | 0, c :: s =>
    match read (c :: s) with
    | some (a, rest) => .inr a :: segmentsFrom read (s.length - rest.length) s
    | none => .inl c :: segmentsFrom read 0 s

/-- The text cut into the parts that `read` finds and the characters between
    them. -/
def segments {α : Type} (read : List Char → Option (α × List Char)) (s : List Char) :
    List (Char ⊕ α) :=
  segmentsFrom read 0 s

/-- The parts that `read` finds in the text, from left to right and without
    overlap. -/
def findAll {α : Type} (read : List Char → Option (α × List Char)) (s : List Char) : List α :=
  (segments read s).filterMap Sum.getRight?

/-- The text without the parts that `read` finds in it. -/
def eraseAll {α : Type} (read : List Char → Option (α × List Char)) (s : List Char) : List Char :=
  (segments read s).filterMap Sum.getLeft?

end LiveDiagram.Text
