import LiveDiagram.Json.Reader

namespace LiveDiagram

variable {α : Type}

/-- The content of a file that should hold a JSON value, as its reader sees it:
    there may be no such file, and its text may be no JSON. -/
inductive FileContent (α : Type) where
  | absent
  | unreadable
  | json (value : Json α)
  deriving Inhabited

/-- The content of a file that holds this text. -/
def FileContent.ofText [Scalar α] (text : String) : FileContent α :=
  match Json.ofText? Scalar.ofNumeral text with
  | some value => json value
  | none => unreadable

/-- The value that a file holds. -/
def FileContent.value? : FileContent α → Option (Json α)
  | json value => some value
  | _ => none

/-- A file at a place that can be written to or not. -/
structure File (α : Type) where
  content : FileContent α := .absent
  writable : Bool := true
  deriving Inhabited

/-- Writes a value to the file; false if the place cannot be written to. What
    the file then holds is what is read back from the text of the value. -/
def File.write [Scalar α] (f : File α) (value : Json α) : File α × Bool :=
  if f.writable then ({ f with content := .json value.reread }, true) else (f, false)

end LiveDiagram
