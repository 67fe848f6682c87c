namespace LiveDiagram

/-- The display settings, which are saved with a document: how diagrams are
    shown, apart from what their own text says. -/
structure Settings where
  nodeColor : String := "#dcddff"
  borderColor : String := "#6464c8"
  showGrid : Bool := true
  antialiasing : Bool := true
  deriving DecidableEq, Repr, Inhabited

end LiveDiagram
