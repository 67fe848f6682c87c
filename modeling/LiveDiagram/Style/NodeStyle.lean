import LiveDiagram.Flowchart.Basic
import LiveDiagram.Number.Scalar
import LiveDiagram.Style.Settings

namespace LiveDiagram

/-- How a node is drawn. -/
structure NodeStyle (α : Type) where
  fill : String
  stroke : String
  strokeWidth : α
  textColor : String
  deriving DecidableEq, Repr, Inhabited

namespace NodeStyle

variable {α : Type} [Scalar α]

def defaultStrokeWidth : α := 2

def defaultTextColor : String := "#2c3e50"

/-- The positive scalar that the text starts with. A number that compares with
    nothing counts, since it is not found to be less than or equal to zero. -/
def positive? (s : List Char) : Option α :=
  match Numeral.read? s with
  | none => none
  | some n => if Scalar.ofNumeral n ≤ (0 : α) then none else some (Scalar.ofNumeral n)

/-- The text without the unit `px` at its end. -/
def dropUnit (s : List Char) : List Char :=
  if 2 < s.length ∧ ['p', 'x'].isSuffixOf s then s.take (s.length - 2) else s

/-- The stroke width that a text sets. -/
def strokeWidthOf (s : String) : α :=
  (positive? (dropUnit s.toList)).getD defaultStrokeWidth

/-- The style of a node under the settings: it has their colours, which the
    properties of its class, if it has one, can override one by one. -/
def resolve (settings : Settings) (properties : Option Properties) : NodeStyle α :=
  let property (key : String) : Option String := properties.bind fun ps => ps[key]?
  { fill := (property "fill").getD settings.nodeColor
    stroke := (property "stroke").getD settings.borderColor
    strokeWidth := ((property "stroke-width").map strokeWidthOf).getD defaultStrokeWidth
    textColor := (property "color").getD defaultTextColor }

end NodeStyle

end LiveDiagram
