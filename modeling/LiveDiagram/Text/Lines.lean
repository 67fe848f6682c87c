import LiveDiagram.Text.Basic

namespace LiveDiagram.Text

/-- Puts a character in front of the first part. -/
def consFirst (c : Char) : List (List Char) → List (List Char)
  | [] => [[c]]
  | part :: parts => (c :: part) :: parts

/-- The parts between the separators, the empty ones included: always one more
    than there are separators, so that joining them with the separator gives the
    text back. -/
def splitOn (sep : Char) : List Char → List (List Char)
  | [] => [[]]
  | c :: s => if c = sep then [] :: splitOn sep s else consFirst c (splitOn sep s)

/-- The line without one carriage return at its end. -/
def dropReturn (line : List Char) : List Char :=
  if line.getLast? = some '\r' then line.dropLast else line

/-- The lines of a text, each without the line feed and the one carriage return
    that end it, so that a line which ended in CR LF and one which ended in LF
    are the same. -/
def lines (text : List Char) : List (List Char) :=
  (splitOn '\n' text).map dropReturn

/-- The lines joined by line feeds. -/
def joinLines (ls : List (List Char)) : List Char :=
  List.intercalate ['\n'] ls

end LiveDiagram.Text
