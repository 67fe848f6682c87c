import LiveDiagram.Store.Backend

namespace LiveDiagram

variable {α : Type}

/-- A store of positions. It holds the current ones and writes every change
    through to its backend, and keeps a change whether or not it could be
    saved. -/
structure Store (α : Type) where
  backend : Backend α
  /-- The current positions; none before the first access. -/
  loaded : Option (Positions α) := none
  /-- Whether the last save went well. -/
  lastSaveOk : Bool := true
  deriving Inhabited

namespace Store

variable [Scalar α]

/-- The store after its first access, which loads the positions, once. If they
    cannot be loaded it starts from none. -/
def load (s : Store α) : Store α :=
  match s.loaded with
  | some _ => s
  | none =>
    let (backend, loaded) := s.backend.load
    { s with backend, loaded := some (loaded.getD {}) }

/-- The positions that a reader sees: the current ones, or those that would be
    loaded. -/
def positions (s : Store α) : Positions α :=
  s.load.loaded.getD {}

/-- Replaces all positions and saves them; nothing needs to be loaded for
    that. -/
def replace (s : Store α) (p : Positions α) : Store α :=
  let (backend, ok) := s.backend.save p
  { backend, loaded := some p, lastSaveOk := ok.getD s.lastSaveOk }

/-- Forgets all positions. -/
def clear (s : Store α) : Store α :=
  s.replace {}

/-- The recorded rectangle of a node. -/
def node? (s : Store α) (id : String) : Option (Rect α) :=
  s.positions.nodes[id]?

/-- The recorded shape of an edge. -/
def edge? (s : Store α) (key : String) : Option (EdgeShape α) :=
  s.positions.edges[key]?

/-- Records the rectangle of a node. -/
def setNode (s : Store α) (id : String) (r : Rect α) : Store α :=
  s.load.replace (s.positions.setNode id r)

/-- Records a change to the shape of an edge. -/
def updateEdge (s : Store α) (key : String) (u : EdgeUpdate α) : Store α :=
  s.load.replace (s.positions.updateEdge key u)

end Store

end LiveDiagram
