import LiveDiagram.Flowchart.ClassStyle
import LiveDiagram.Flowchart.Statement

namespace LiveDiagram

open Text

namespace Flowchart

/-- What a line defines: a direction, the style of a class, a list of nodes that
    join a class, or what the marks `:::name` say that may follow a reference in
    a statement. A line is looked at twice, for its definition and for its
    statement, and the two are independent: a statement whose label holds the
    words `graph LR` sets the direction and is still read as a statement. -/
inductive Definition where
  | direction (d : Direction)
  | style (name : String) (properties : Properties)
  /-- Nodes and the class each of them joins, in order. -/
  | members (joins : List (String × String))

/-- Whether a word cannot go on at the head of the text. -/
def isWordEnd (s : List Char) : Bool :=
  !s.head?.any isWordChar

/-- The text after one of the two words that open a flowchart. -/
def afterHeaderWord? (s : List Char) : Option (List Char) :=
  after? "flowchart".toList s <|> after? "graph".toList s

/-- Whether the line starts with a header word. -/
def isHeader (line : List Char) : Bool :=
  (afterHeaderWord? line).any isWordEnd

/-- A direction at the head of the text: a header word, white space and the name
    of a direction as a whole word. -/
def directionAt? (s : List Char) : Option Direction := do
  let s ← afterHeaderWord? s
  let s ← skipSpaces? s
  Direction.all.find? fun d => (after? d.name.toList s).any isWordEnd

/-- The first direction in the text. The header word in front of it starts a
    word, which it does not when the character before it, described by the flag,
    belongs to one. -/
def directionIn? (inWord : Bool) : List Char → Option Direction
  | [] => none
  | c :: s =>
    match if inWord then none else directionAt? (c :: s) with
    | some d => some d
    | none => directionIn? (isWordChar c) s

/-- The name and the properties of a line `classDef name properties`. -/
def style? (line : List Char) : Option (String × Properties) := do
  let s ← after? "classDef".toList line
  let s ← skipSpaces? s
  let (name, s) ← word? s
  let properties ← restOfLine 1 s
  pure (String.ofList name, Properties.ofText properties)

/-- The part of a class line between the keyword and the last word. The white
    space around it is skipped; where there is nothing else, it is the last
    character but one. -/
def memberList? (s : List Char) : Option (List Char) :=
  if s.all isSpace then
    s.reverse[1]?.bind fun c => if 3 ≤ s.length then some [c] else none
  else if (s.head?.any isSpace && s.getLast?.any isSpace) then
    some (strip isSpace s)
  else
    none

/-- Whether a character may stand in a list of words. -/
def isWordListChar (c : Char) : Bool :=
  isWordChar c || c == ',' || isSpace c

/-- The ids and the class of a line `class id,id name`, which a semicolon may
    end. -/
def membership? (line : List Char) : Option (List String × String) := do
  let s ← after? "class".toList line
  let s := if s.getLast? = some ';' then s.dropLast else s
  let s := dropTrailing isSpace s
  let name := (s.reverse.takeWhile isWordChar).reverse
  if name.isEmpty || !s.all isWordListChar then none
  let ids ← memberList? (dropTrailing isWordChar s)
  pure ((((splitOn ',' ids).map trim).filter fun id => !id.isEmpty).map String.ofList,
    String.ofList name)

/-- A mark `:::name` at the head of the text. -/
def classMark? (s : List Char) : Option (List Char × List Char) := do
  let s ← after? [':', ':', ':'] s
  word? s

/-- A reference that is followed by a class mark. -/
def markedRef? (s : List Char) : Option ((String × String) × List Char) :=
  (NodeRef.readings s).findSome? fun (r, rest) => do
    let (name, rest) ← classMark? rest
    pure ((String.ofList r.id, String.ofList name), rest)

/-- What a line defines; a line of no other kind defines what its class marks
    say. -/
def Definition.ofLine (line : List Char) : Definition :=
  match directionIn? false line with
  | some d => .direction d
  | none =>
    match style? line with
    | some (name, properties) => .style name properties
    | none =>
      match membership? line with
      | some (ids, name) => .members (ids.map fun id => (id, name))
      | none => .members (findAll markedRef? line)

/-- The line as a statement: without its class marks and the semicolons at its
    end. -/
def statementText (line : List Char) : List Char :=
  trim (dropTrailing (· == ';') (trim (eraseAll classMark? line)))

/-- What a line states, read without its class marks, if it is neither a header
    nor a class line. -/
def Statement.ofLine? (line : List Char) : Option Statement :=
  if isHeader line || (style? line).isSome || (membership? line).isSome then
    none
  else
    Statement.read? (statementText line)

end Flowchart

end LiveDiagram
