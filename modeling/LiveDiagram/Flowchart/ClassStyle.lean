import LiveDiagram.Flowchart.Basic
import LiveDiagram.Text.Lines

namespace LiveDiagram

open Text

/-- The key and the value of one property: the value is trimmed, loses the
    semicolons at its end, and is trimmed again. -/
def Properties.entry? (s : List Char) : Option (String × String) :=
  let property := trim s
  match property.dropWhile (· != ':') with
  | [] => none
  | _ :: value =>
    match trim (property.takeWhile (· != ':')) with
    | [] => none
    | key => some (String.ofList key, String.ofList (trim (dropTrailing (· == ';') (trim value))))

/-- The properties written in a text such as `fill:#f9f, stroke:#333`, separated
    by commas. Parts without a colon or without a key are passed over, and of
    two properties with the same key the later one counts. -/
def Properties.ofText (s : List Char) : Properties :=
  ((splitOn ',' s).filterMap Properties.entry?).foldl (fun ps (key, value) => ps.insert key value) ∅

end LiveDiagram
