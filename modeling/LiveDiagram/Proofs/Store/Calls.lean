import LiveDiagram.Store.Basic

namespace LiveDiagram

/-- Something that can be asked of a store of positions. -/
inductive StoreCall (α : Type) where
  | node (id : String)
  | setNode (id : String) (r : Rect α)
  | edge (e : Edge)
  | updateEdge (e : Edge) (u : EdgeUpdate α)
  | clear
  | replace (p : Positions α)
  | positions

/-- What a call answers. All positions are given as a `σ`. -/
inductive StoreReply (σ α : Type) where
  | done
  | node (r : Option (Rect α))
  | edge (e : Option (EdgeShape α))
  | positions (all : σ)

namespace StoreCall

variable {α : Type}

/-- Whether the call changes the positions. -/
def changes : StoreCall α → Bool
  | setNode .. | updateEdge .. | clear | replace _ => true
  | node _ | edge _ | positions => false

/-- Whether the call depends on the positions that there are. -/
def needsPositions : StoreCall α → Bool
  | clear | replace _ => false
  | _ => true

end StoreCall

/-- A call at a time when the backend fails to load, or to save, or neither. -/
structure Trial (α : Type) where
  call : StoreCall α
  failLoads : Bool := false
  failSaves : Bool := false

namespace Trial

variable {α : Type}

/-- The last of some trials that changes the positions. -/
def lastChange? (trials : List (Trial α)) : Option (Trial α) :=
  (trials.filter fun t => t.call.changes).getLast?

/-- Whether the first trial needs the positions, so that they are loaded. -/
def loadsFirst (trials : List (Trial α)) : Bool :=
  trials.head?.any fun t => t.call.needsPositions

/-- Whether the positions are loaded at the first trial, and cannot be. -/
def loadFails (trials : List (Trial α)) : Bool :=
  trials.head?.any fun t => t.call.needsPositions && t.failLoads

end Trial

section PlainMap

variable {α : Type}

/-- Rectangles by id and shapes by edge key, in memory and nowhere else. The
    plain map knows no backend: it is two maps and what a call does to them. -/
@[ext] structure PlainMap (α : Type) where
  node : String → Option (Rect α)
  edge : String → Option (EdgeShape α)

namespace PlainMap

/-- The map without entries. -/
def empty : PlainMap α where
  node _ := none
  edge _ := none

/-- What is recorded, as a plain map. -/
def ofPositions (p : Positions α) : PlainMap α where
  node id := p.nodes[id]?
  edge key := p.edges[key]?

/-- The entry of an edge with the given fields of an update in place of its own.
    An edge without an entry starts from the default shape. -/
def mergedEdge (m : PlainMap α) (key : String) (u : EdgeUpdate α) : EdgeShape α :=
  let old := (m.edge key).getD {}
  { curved := u.curved.getD old.curved
    startOffset := u.startOffset.or old.startOffset
    endOffset := u.endOffset.or old.endOffset
    control1 := u.control1.or old.control1
    control2 := u.control2.or old.control2 }

/-- What a call does to the map, and what it answers. -/
def call (m : PlainMap α) : StoreCall α → PlainMap α × StoreReply (PlainMap α) α
  | .node id => (m, .node (m.node id))
  | .setNode id r => ({ m with node := fun other => if id = other then some r else m.node other }, .done)
  | .edge e => (m, .edge (m.edge e.key))
  | .updateEdge e u =>
    ({ m with
        edge := fun other => if e.key = other then some (m.mergedEdge e.key u) else m.edge other },
      .done)
  | .clear => (empty, .done)
  | .replace p => (ofPositions p, .done)
  | .positions => (m, .positions m)

/-- The map that a store over a memory starts from: what the memory holds, or
    nothing if that cannot be loaded. -/
def start (p : Positions α) (trials : List (Trial α)) : PlainMap α :=
  if Trial.loadFails trials then empty else ofPositions p

/-- The map after some calls, and what they answered. -/
def calls (m : PlainMap α) : List (StoreCall α) → PlainMap α × List (StoreReply (PlainMap α) α)
  | [] => (m, [])
  | c :: rest =>
    let next := m.call c
    ((calls next.1 rest).1, next.2 :: (calls next.1 rest).2)

end PlainMap

end PlainMap

/-- The reply with all positions given as a plain map. -/
def StoreReply.plain {α : Type} : StoreReply (Positions α) α → StoreReply (PlainMap α) α
  | done => done
  | node r => node r
  | edge e => edge e
  | positions p => positions (PlainMap.ofPositions p)

variable {α : Type}

/-- The memory at the time of a trial. -/
def Memory.facing (m : Memory α) (t : Trial α) : Memory α :=
  { m with failLoads := t.failLoads, failSaves := t.failSaves }

/-- The backend at the time of a trial. Only one in memory can be told to
    fail. -/
def Backend.facing (t : Trial α) : Backend α → Backend α
  | .memory m => .memory (m.facing t)
  | b => b

namespace Store

/-- A store that was not accessed yet, over a backend in memory that holds some
    positions. -/
def overMemory (p : Positions α) : Store α where
  backend := .memory { saved := p }

/-- The store at the time of a trial. -/
def facing (s : Store α) (t : Trial α) : Store α :=
  { s with backend := s.backend.facing t }

variable [Scalar α]

/-- What a call does to the store, and what it answers. -/
def call (s : Store α) : StoreCall α → Store α × StoreReply (Positions α) α
  | .node id => (s.load, .node (s.node? id))
  | .setNode id r => (s.setNode id r, .done)
  | .edge e => (s.load, .edge (s.edge? e.key))
  | .updateEdge e u => (s.updateEdge e.key u, .done)
  | .clear => (s.clear, .done)
  | .replace p => (s.replace p, .done)
  | .positions => (s.load, .positions s.positions)

/-- A call while the backend works or fails as the trial says. -/
def attempt (s : Store α) (t : Trial α) : Store α × StoreReply (Positions α) α :=
  (s.facing t).call t.call

/-- The store after some trials, and what they answered. -/
def attempts (s : Store α) : List (Trial α) → Store α × List (StoreReply (Positions α) α)
  | [] => (s, [])
  | t :: rest =>
    let next := s.attempt t
    ((attempts next.1 rest).1, next.2 :: (attempts next.1 rest).2)

end Store

end LiveDiagram
