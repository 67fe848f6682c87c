import LiveDiagram.Json.Basic
import LiveDiagram.Positions.Basic

namespace LiveDiagram

variable {α : Type} [Scalar α]

namespace Json

/-- The number under a key, zero if there is none. -/
def numField (j : Json α) (key : String) : α :=
  ((j.field? key).bind num?).getD 0

/-- An array of two numbers as a point. -/
def point? : Json α → Option (Point α)
  | arr [num x, num y] => some ⟨x, y⟩
  | _ => none

/-- The array of the coordinates of a point. -/
def ofPoint (p : Point α) : Json α :=
  arr [num p.x, num p.y]

/-- An object as the map of those of its members that can be read, the last of
    each key. -/
def toMap {β : Type} (read : Json α → Option β) (j : Json α) : Std.ExtTreeMap String β :=
  (j.entries?.getD []).foldl
    (fun m (key, value) => match read value with
      | some b => m.insert key b
      | none => m) ∅

/-- A map as an object, in the order of the keys. -/
def ofMap {β : Type} (write : β → Json α) (m : Std.ExtTreeMap String β) : Json α :=
  obj (m.toList.map fun (key, value) => (key, write value))

end Json

open Json

/-- The rectangle of a node from its record. A number that is missing is
    zero. -/
def Rect.ofJson? (j : Json α) : Option (Rect α) :=
  match j with
  | obj _ => some ⟨j.numField "x", j.numField "y", j.numField "width", j.numField "height"⟩
  | _ => none

/-- The record of the rectangle of a node. -/
def Rect.toJson (r : Rect α) : Json α :=
  obj [("x", num r.x), ("y", num r.y), ("width", num r.width), ("height", num r.height)]

/-- The shape of an edge from its record. A point that is missing stays
    missing. -/
def EdgeShape.ofJson? (j : Json α) : Option (EdgeShape α) :=
  match j with
  | obj _ =>
    some
      { curved := ((j.field? "use_bezier").bind bool?).getD false
        startOffset := (j.field? "start_offset").bind point?
        endOffset := (j.field? "end_offset").bind point?
        control1 := (j.field? "control1").bind point?
        control2 := (j.field? "control2").bind point? }
  | _ => none

/-- The record of the shape of an edge, without the points that it lacks. -/
def EdgeShape.toJson (e : EdgeShape α) : Json α :=
  let point (key : String) (p : Option (Point α)) := (p.map fun p => (key, ofPoint p)).toList
  obj (("use_bezier", bool e.curved) :: point "start_offset" e.startOffset
    ++ point "end_offset" e.endOffset ++ point "control1" e.control1 ++ point "control2" e.control2)

namespace Positions

/-- The positions that a value records, an object with the members `nodes` and
    `edges`. The older flat form, an object of nodes with neither member, is
    read too. Entries that are no objects and fields of the wrong type are
    passed over, so every value is read as some positions. -/
def ofJson (j : Json α) : Positions α :=
  match j.field? "nodes", j.field? "edges" with
  | none, none => { nodes := j.toMap Rect.ofJson? }
  | nodes, edges =>
    { nodes := (nodes.getD null).toMap Rect.ofJson?
      edges := (edges.getD null).toMap EdgeShape.ofJson? }

/-- The members that record positions. -/
def toMembers (p : Positions α) : List (String × Json α) :=
  [("edges", ofMap EdgeShape.toJson p.edges), ("nodes", ofMap Rect.toJson p.nodes)]

/-- The value that records the positions. -/
def toJson (p : Positions α) : Json α :=
  obj p.toMembers

/-- The positions in a file that holds this value; a file that does not hold an
    object has none. -/
def ofFileJson? (j : Json α) : Option (Positions α) :=
  match j with
  | obj _ => some (ofJson j)
  | _ => none

end Positions

end LiveDiagram
