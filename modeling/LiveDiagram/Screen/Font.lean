import LiveDiagram.Number.Double
import LiveDiagram.Style.TextMeasure
import LiveDiagram.Text.Basic

namespace LiveDiagram

/-- A font of the screen, which measures the texts that are drawn with it. To a
    font a text ends at its first null character. -/
structure Font (β : Type) where
  /-- The size of a text that holds no null character. -/
  measure : Measure β
  size : β

/-- The size of a text. -/
def Font.extent {β : Type} (f : Font β) (s : String) : Extent β :=
  f.measure (Text.untilNull s)

/-- Measures texts of the plane with the font of the screen. Without a font they
    have no size. -/
def Measure.ofFont {α β : Type} [Scalar α] [Narrowing α β] (font : Option (Font β)) : Measure α :=
  fun s =>
    match font with
    | some f =>
      let size := f.extent s
      ⟨Narrowing.widen size.width, Narrowing.widen size.height⟩
    | none => ⟨0, 0⟩

end LiveDiagram
