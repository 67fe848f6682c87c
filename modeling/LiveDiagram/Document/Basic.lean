import LiveDiagram.Positions.Codec
import LiveDiagram.Style.Color
import LiveDiagram.Style.Settings

namespace LiveDiagram

variable {α : Type} [Scalar α]

/-- A saved diagram: its text with the positions and the settings. -/
structure Document (α : Type) where
  text : String := ""
  positions : Positions α := {}
  settings : Settings := {}

/-- The format and the version that a document states. -/
def Document.formatName : String := "textdiagram"

def Document.formatVersion : Nat := 1

open Json

/-- A colour under a key, if it is one. -/
def Json.colorField? (j : Json α) (key : String) : Option String :=
  ((j.field? key).bind str?).filter fun s => (Color.ofText? s).isSome

/-- A truth value under a key. -/
def Json.boolField? (j : Json α) (key : String) : Option Bool :=
  (j.field? key).bind bool?

/-- The settings that a value records. A setting that is missing or malformed
    keeps its default. -/
def Settings.ofJson (j : Json α) : Settings :=
  let default : Settings := {}
  { nodeColor := (j.colorField? "node_color").getD default.nodeColor
    borderColor := (j.colorField? "border_color").getD default.borderColor
    showGrid := (j.boolField? "show_grid").getD default.showGrid
    antialiasing := (j.boolField? "antialiasing").getD default.antialiasing }

/-- The value that records the settings. -/
def Settings.toJson (s : Settings) : Json α :=
  obj [("antialiasing", bool s.antialiasing), ("border_color", str s.borderColor),
    ("node_color", str s.nodeColor), ("show_grid", bool s.showGrid)]

namespace Document

/-- The text that a document records. -/
def textOf (j : Json α) : String :=
  (((j.field? "text").bind str?)
    <|> ((j.field? "diagram").bind fun d => (d.field? "text").bind str?)).getD ""

/-- The positions that a document records. Unlike a file of positions alone, it
    has no flat form. -/
def positionsOf (j : Json α) : Positions α :=
  { nodes := ((j.field? "nodes").getD null).toMap Rect.ofJson?
    edges := ((j.field? "edges" <|> j.field? "edge_customizations").getD null).toMap
      EdgeShape.ofJson? }

/-- The document that a value records, if the value is an object. The older
    forms of that object are taken too: the text under `diagram`, and the edges
    under `edge_customizations`. -/
def ofJson? (j : Json α) : Option (Document α) :=
  match j with
  | obj _ =>
    some
      { text := textOf j
        positions := positionsOf j
        settings := Settings.ofJson ((j.field? "settings").getD null) }
  | _ => none

/-- The value that records the document. -/
def toJson (d : Document α) : Json α :=
  obj (d.positions.toMembers
    ++ [("format", str formatName), ("version", num (Scalar.ofNat formatVersion)),
      ("text", str d.text), ("settings", d.settings.toJson)])

end Document

end LiveDiagram
