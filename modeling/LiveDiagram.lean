import LiveDiagram.Chart.Edit
import LiveDiagram.Chart.Render
import LiveDiagram.Document.Basic
import LiveDiagram.Json.Printer
import LiveDiagram.Json.Reader
import LiveDiagram.Layout.Placement
import LiveDiagram.Log.Folder
import LiveDiagram.Number.Decimal
import LiveDiagram.Number.Double
import LiveDiagram.Plane.Handle
import LiveDiagram.Plane.Route
import LiveDiagram.Pointer.Basic
import LiveDiagram.Positions.Codec
import LiveDiagram.Proofs.Chart.Alike
import LiveDiagram.Proofs.Chart.Anchors
import LiveDiagram.Proofs.Chart.Current
import LiveDiagram.Proofs.Chart.Edits
import LiveDiagram.Proofs.Chart.Idempotence
import LiveDiagram.Proofs.Chart.Isolation
import LiveDiagram.Proofs.Chart.Joining
import LiveDiagram.Proofs.Chart.Linked
import LiveDiagram.Proofs.Chart.Lookup
import LiveDiagram.Proofs.Chart.Normal
import LiveDiagram.Proofs.Chart.Placement
import LiveDiagram.Proofs.Chart.Reconcile
import LiveDiagram.Proofs.Chart.Recorded
import LiveDiagram.Proofs.Chart.Rects
import LiveDiagram.Proofs.Chart.Removal
import LiveDiagram.Proofs.Chart.Render
import LiveDiagram.Proofs.Chart.RenderWrites
import LiveDiagram.Proofs.Chart.Routes
import LiveDiagram.Proofs.Chart.Routing
import LiveDiagram.Proofs.Chart.Scene
import LiveDiagram.Proofs.Chart.Selection
import LiveDiagram.Proofs.Chart.Settled
import LiveDiagram.Proofs.Chart.Shapes
import LiveDiagram.Proofs.Chart.Stage
import LiveDiagram.Proofs.Chart.Step
import LiveDiagram.Proofs.Chart.Writes
import LiveDiagram.Proofs.Flowchart.Arrows
import LiveDiagram.Proofs.Flowchart.Declared
import LiveDiagram.Proofs.Flowchart.Fan
import LiveDiagram.Proofs.Flowchart.HeaderWords
import LiveDiagram.Proofs.Flowchart.Ids
import LiveDiagram.Proofs.Flowchart.LabelText
import LiveDiagram.Proofs.Flowchart.LabelledEdge
import LiveDiagram.Proofs.Flowchart.LoneNode
import LiveDiagram.Proofs.Flowchart.Mention
import LiveDiagram.Proofs.Flowchart.OneLine
import LiveDiagram.Proofs.Flowchart.QuotedLabel
import LiveDiagram.Proofs.Flowchart.Reading
import LiveDiagram.Proofs.Flowchart.RoundTrip
import LiveDiagram.Proofs.Flowchart.Spelled
import LiveDiagram.Proofs.Flowchart.Stated
import LiveDiagram.Proofs.Flowchart.WellFormed
import LiveDiagram.Proofs.Flowchart.Written
import LiveDiagram.Proofs.Flowchart.WrittenLines
import LiveDiagram.Proofs.Flowchart.WrittenStyles
import LiveDiagram.Proofs.Json.Objects
import LiveDiagram.Proofs.Number.Exact
import LiveDiagram.Proofs.Number.Span
import LiveDiagram.Proofs.Plane.Border
import LiveDiagram.Proofs.Plane.Polyline
import LiveDiagram.Proofs.Pointer.ControlDrag
import LiveDiagram.Proofs.Pointer.Dragging
import LiveDiagram.Proofs.Pointer.Drags
import LiveDiagram.Proofs.Pointer.Events
import LiveDiagram.Proofs.Pointer.Gesture
import LiveDiagram.Proofs.Pointer.GroupDrag
import LiveDiagram.Proofs.Pointer.HandleDrag
import LiveDiagram.Proofs.Pointer.Hits
import LiveDiagram.Proofs.Pointer.Kept
import LiveDiagram.Proofs.Pointer.ParticipantDrag
import LiveDiagram.Proofs.Pointer.Recorded
import LiveDiagram.Proofs.Pointer.Selection
import LiveDiagram.Proofs.Pointer.Topmost
import LiveDiagram.Proofs.Pointer.Tracked
import LiveDiagram.Proofs.Pointer.Unstopped
import LiveDiagram.Proofs.Positions.Codec
import LiveDiagram.Proofs.Screen.Dashes
import LiveDiagram.Proofs.Screen.Frames
import LiveDiagram.Proofs.Screen.Zoom
import LiveDiagram.Proofs.Sequence.ParticipantLine
import LiveDiagram.Proofs.Sequence.RoundTrip
import LiveDiagram.Proofs.Sequence.Stated
import LiveDiagram.Proofs.Sequence.Statement
import LiveDiagram.Proofs.Sequence.WellFormed
import LiveDiagram.Proofs.Sequence.Written
import LiveDiagram.Proofs.Session.Afresh
import LiveDiagram.Proofs.Session.Anchors
import LiveDiagram.Proofs.Session.Calls
import LiveDiagram.Proofs.Session.Cells
import LiveDiagram.Proofs.Session.Consistent
import LiveDiagram.Proofs.Session.Current
import LiveDiagram.Proofs.Session.Document
import LiveDiagram.Proofs.Session.Failure
import LiveDiagram.Proofs.Session.Flowcharts
import LiveDiagram.Proofs.Session.Forgetting
import LiveDiagram.Proofs.Session.Headers
import LiveDiagram.Proofs.Session.InPlace
import LiveDiagram.Proofs.Session.Lefts
import LiveDiagram.Proofs.Session.Reset
import LiveDiagram.Proofs.Session.Writes
import LiveDiagram.Proofs.Source.Agreement
import LiveDiagram.Proofs.Source.FrontMatter
import LiveDiagram.Proofs.Source.Keys
import LiveDiagram.Proofs.Source.Naming
import LiveDiagram.Proofs.Source.Removal
import LiveDiagram.Proofs.Source.Replaced
import LiveDiagram.Proofs.Source.Statements
import LiveDiagram.Proofs.Stage.Alike
import LiveDiagram.Proofs.Stage.Outcome
import LiveDiagram.Proofs.Stage.Refusals
import LiveDiagram.Proofs.Store.Calls
import LiveDiagram.Proofs.Store.Debounce
import LiveDiagram.Proofs.Store.Positions
import LiveDiagram.Proofs.Store.Refinement
import LiveDiagram.Proofs.Surface.Bounds
import LiveDiagram.Proofs.Surface.Drawing
import LiveDiagram.Proofs.Surface.Order
import LiveDiagram.Proofs.Surface.PartIds
import LiveDiagram.Proofs.Surface.Scene
import LiveDiagram.Proofs.Text.Forms
import LiveDiagram.Proofs.Text.Inside
import LiveDiagram.Proofs.Text.Lines
import LiveDiagram.Proofs.Text.Reading
import LiveDiagram.Proofs.Text.Separators
import LiveDiagram.Proofs.Timeline.Afresh
import LiveDiagram.Proofs.Timeline.Alike
import LiveDiagram.Proofs.Timeline.Drawing
import LiveDiagram.Proofs.Timeline.Following
import LiveDiagram.Proofs.Timeline.Found
import LiveDiagram.Proofs.Timeline.Linked
import LiveDiagram.Proofs.Timeline.Lists
import LiveDiagram.Proofs.Timeline.Lookup
import LiveDiagram.Proofs.Timeline.Operations
import LiveDiagram.Proofs.Timeline.Participants
import LiveDiagram.Proofs.Timeline.Phases
import LiveDiagram.Proofs.Timeline.Placing
import LiveDiagram.Proofs.Timeline.Rendering
import LiveDiagram.Proofs.Timeline.Shown
import LiveDiagram.Proofs.Timeline.Stage
import LiveDiagram.Proofs.Timeline.Tidy
import LiveDiagram.Proofs.Timeline.Untitled
import LiveDiagram.Proofs.Timeline.Writes
import LiveDiagram.Screen.Frame
import LiveDiagram.Session.Text
import LiveDiagram.Source.Diagram
import LiveDiagram.Store.Basic
import LiveDiagram.Store.Debounce
import LiveDiagram.Style.NodeStyle
import LiveDiagram.Style.TextMeasure
import LiveDiagram.Timeline.Edit
import LiveDiagram.Timeline.Render
