import LiveDiagram.Number.Scalar

namespace LiveDiagram.Layout

variable {α : Type} [Scalar α]

/-- The size of a node without a recorded one, in units of the plane like all
    measures here. -/
def nodeWidth : α := 160
def nodeHeight : α := 60

/-- The distance between the columns and the rows of the default grid. -/
def nodeSpacingX : α := 220
def nodeSpacingY : α := 120

/-- How many nodes stand in a row of the default grid. -/
def nodesPerRow : Nat := 4

/-- The least side of a node that is resized. -/
def minNodeSize : α := 50

/-- The side of a resize handle. -/
def handleSize : α := 8

/-- The pitch of the grid to which a normalized layout snaps. -/
def snapPitch : α := 20

/-- The padding around the label of a normalized node, and the least size of
    such a node. -/
def fitPadding : α := 16
def fitMinWidth : α := 80
def fitMinHeight : α := 48

/-- How far the control points of a new curve stand off the ends of the edge:
    along it at least the first length and at least a quarter of the edge, and
    across it the second. -/
def curveMinAlong : α := 40
def curveAlongRatio : α := 1 / 4
def curveAcross : α := 40

/-- The length and half the width of an arrow head. -/
def arrowLength : α := 14
def arrowHalfWidth : α := 6

/-- The radius of the points by which an edge is dragged. -/
def edgePointRadius : α := 5

/-- How far from an edge a press still hits it. -/
def edgeTolerance : α := 6

/-- How near to the center of a node, in both coordinates, a point has no
    direction from it. -/
def centerTolerance : α := 1 / 10

/-- The distance between participants, unless the diagram sets another one. -/
def participantSpacing : α := 220

/-- The size of a participant without a recorded one. -/
def participantWidth : α := 140
def participantHeight : α := 42

/-- Where lifelines end. -/
def lifelineEnd : α := 1000

/-- Where the first message stands, and how far the messages are apart. -/
def messageTop : α := 120
def messageStep : α := 70

/-- How far below the place after the last message the first note stands, and
    how far the notes are apart. -/
def noteGap : α := 50
def noteStep : α := 80

/-- The least width of a note, what it adds to the span of its participants, and
    what it adds to the height of its text. -/
def noteMinWidth : α := 120
def notePadding : α := 140
def noteTextMargin : α := 14

/-- What a note leaves around its text before its margin. -/
def noteTextPadding : α := 8

/-- Where the title stands. -/
def titleTop : α := 8

end LiveDiagram.Layout
