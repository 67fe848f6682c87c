import LiveDiagram.Sequence.Basic
import LiveDiagram.Text.Lines
import LiveDiagram.Text.Scan

namespace LiveDiagram

open Text

namespace Sequence

/-- What one line of a sequence diagram states: the title, a participant, a note
    or a message. -/
inductive Statement where
  | title (text : String)
  | participant (id label : String)
  | note (ids : List String) (text : String)
  | message (m : Message)
  deriving DecidableEq, Repr

namespace Statement

/-- The text of a line `title text`. -/
def title? (line : List Char) : Option (List Char) := do
  let s ← afterAnyCase? "title".toList line
  let text ← restOfLine 1 s
  pure (trim text)

/-- The id and the label of a line `participant id` or
    `participant id as label`, where `actor` may stand for `participant`.
    Without a label the id is the label. -/
def participant? (line : List Char) : Option (List Char × List Char) := do
  let s ← afterAnyCase? "participant".toList line <|> afterAnyCase? "actor".toList line
  let s ← skipSpaces? s
  let (id, rest) ← word? s
  match rest with
  | [] => pure (id, id)
  | _ =>
    let s ← skipSpaces? rest
    let s ← afterAnyCase? "as".toList s
    let label ← restOfLine 1 s
    pure (id, trim label)

/-- Whether a character may stand in the list of participants of a note. -/
def isIdListChar (c : Char) : Bool :=
  isWordChar c || c == ',' || isSpace c

/-- The list of participants at the head of the text, which a colon ends. -/
def idList? (s : List Char) : Option (List Char × List Char) := do
  let ids ← afterSpaces 1 (fun part => !part.isEmpty) (s.takeWhile isIdListChar)
  let rest ← after? [':'] (s.dropWhile isIdListChar)
  pure (ids, rest)

/-- The parts of a list of ids, each at its first place only. -/
def distinctIds (s : List Char) : List (List Char) :=
  (((splitOn ',' s).map trim).filter fun id => !id.isEmpty).foldl
    (fun ids id => if ids.contains id then ids else ids ++ [id]) []

/-- The participants and the text of a line `note over id,id: text`. -/
def note? (line : List Char) : Option (List (List Char) × List Char) := do
  let s ← afterAnyCase? "note".toList line
  let s ← skipSpaces? s
  let s ← afterAnyCase? "over".toList s
  let (ids, rest) ← idList? s
  let text ← restOfLine 0 rest
  pure (distinctIds ids, trim text)

/-- An arrow of one or two hyphens and one or two heads, with the style it
    stands for: two heads make the message asynchronous, and otherwise two
    hyphens make it dashed. -/
def arrow? (s : List Char) : Option (MessageStyle × List Char) :=
  match s with
  | '-' :: '-' :: '>' :: '>' :: rest => some (.async, rest)
  | '-' :: '>' :: '>' :: rest => some (.async, rest)
  | '-' :: '-' :: '>' :: rest => some (.dashed, rest)
  | '-' :: '>' :: rest => some (.solid, rest)
  | _ => none

/-- The message of a line `a->b: text`. -/
def message? (line : List Char) : Option Message := do
  let (source, s) ← word? line
  let (style, s) ← arrow? (skipSpaces s)
  let (target, s) ← word? (skipSpaces s)
  let s ← after? [':'] (skipSpaces s)
  let text ← restOfLine 0 s
  pure { source := String.ofList source, target := String.ofList target
         text := String.ofList (trim text), style }

/-- What a line states. Keywords are read in any case, and each form has to fit
    the whole line. Blank lines and lines that start with `#` state nothing. -/
def ofLine? (line : List Char) : Option Statement :=
  let line := trim line
  if line.head? = some '#' then
    none
  else
    (title? line).map (fun text => title (String.ofList text))
      <|> (participant? line).map (fun (id, label) =>
        participant (String.ofList id) (String.ofList label))
      <|> (note? line).map (fun (ids, text) =>
        note (ids.map String.ofList) (String.ofList text))
      <|> (message? line).map message

end Statement

end Sequence

end LiveDiagram
