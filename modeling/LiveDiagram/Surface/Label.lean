import LiveDiagram.Surface.Primitive

namespace LiveDiagram

variable {α : Type} [Scalar α]

/-- A text of that colour in the middle of a box, on a background if one is
    given. -/
def Primitive.label (box : Rect α) (content color background : String) (z : Int) : Primitive α where
  shape := .text box content
  paint := .plain background color
  z

/-- A line of width two. -/
def Primitive.stroke (p q : Point α) (color : String) (dashed : Bool) (z : Int) : Primitive α where
  shape := .line [p, q]
  paint := { stroke := color, strokeWidth := 2, dashed }
  z

/-- The corner radius of nodes and notes. -/
def cornerRadius : α := 8

/-- The background of a label that stands on a line. -/
def labelBackground : String := "#ffffff"

/-- What a label on a line adds to the size of its text on every side. -/
def labelPadX : α := 4

def labelPadY : α := 2

/-- The size of a label on a line, given that of its text. -/
def labelSize (text : Extent α) : Extent α :=
  ⟨text.width + 2 * labelPadX, text.height + 2 * labelPadY⟩

end LiveDiagram
