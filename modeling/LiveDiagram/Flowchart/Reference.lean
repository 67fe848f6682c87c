import LiveDiagram.Text.Scan

namespace LiveDiagram

open Text

/-- A reference to a node in a statement, with the label written beside it: `a`,
    `a[label]` or `a["label"]`. -/
structure NodeRef where
  id : List Char
  label : Option (List Char) := none
  deriving DecidableEq, Repr

namespace NodeRef

/-- A label in brackets: without the blanks around it, then without the quotes
    around that. -/
def unquote (s : List Char) : List Char :=
  strip (· == '"') (trim s)

/-- What stands between `["` and the next quote, if a closing bracket follows
    that quote. -/
def quotedLabel? (s : List Char) : Option (List Char × List Char) := do
  let s ← after? ['[', '"'] s
  let rest ← after? ['"', ']'] (s.dropWhile (· != '"'))
  pure (s.takeWhile (· != '"'), rest)

/-- What stands between a bracket and the next closing bracket. -/
def bracketLabel? (s : List Char) : Option (List Char × List Char) := do
  let s ← after? ['['] s
  let rest ← after? [']'] (s.dropWhile (· != ']'))
  pure (s.takeWhile (· != ']'), rest)

/-- The ways to read a reference at the head of the text, with what each leaves:
    with a quoted label, with a label in brackets, and without a label. One text
    can be read in several ways, `a[b]` also as `a` followed by other text, and
    a statement takes the first one under which the rest of it can be read. -/
def readings (s : List Char) : List (NodeRef × List Char) :=
  match word? s with
  | none => []
  | some (id, rest) =>
    ((quotedLabel? rest).map fun (label, rest) => (⟨id, some label⟩, rest)).toList
      ++ ((bracketLabel? rest).map fun (label, rest) => (⟨id, some (unquote label)⟩, rest)).toList
      ++ [(⟨id, none⟩, rest)]

/-- The preferred reading at the head of the text. -/
def read? (s : List Char) : Option (NodeRef × List Char) :=
  (readings s).head?

/-- The reference that makes up the whole text. -/
def whole? (s : List Char) : Option NodeRef :=
  ((readings s).find? fun (_, rest) => rest.isEmpty).map (·.1)

/-- The id and the label that a reference declares, if it carries a label. An
    empty label stands for the id. -/
def declared? (r : NodeRef) : Option (String × String) :=
  r.label.map fun label =>
    (String.ofList r.id, String.ofList (if label.isEmpty then r.id else label))

end NodeRef

end LiveDiagram
