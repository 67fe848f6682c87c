import LiveDiagram.Plane.Basic
import LiveDiagram.Text.Lines

namespace LiveDiagram

/-- A way to measure texts. Wherever a text is placed on the plane, the way to
    measure it is a parameter. -/
abbrev Measure (α : Type) := String → Extent α

/-- The size of a text whose characters all have the same width and whose lines
    the same height. -/
def Measure.fixed {α : Type} [Scalar α] (charWidth lineHeight : α) : Measure α := fun text =>
  let lines := Text.splitOn '\n' text.toList
  let longest := lines.foldl (fun n line => max n line.length) 0
  ⟨Scalar.ofNat longest * charWidth, Scalar.ofNat lines.length * lineHeight⟩

end LiveDiagram
