import LiveDiagram.Positions.Codec
import LiveDiagram.Store.File

namespace LiveDiagram

variable {α : Type}

/-- Positions kept in memory, with a count of the calls and the wish to fail
    them. -/
structure Memory (α : Type) where
  saved : Positions α := {}
  saves : Nat := 0
  loads : Nat := 0
  failSaves : Bool := false
  failLoads : Bool := false
  deriving Inhabited

/-- What a store of positions writes to: where they last, in memory, in a file,
    or nowhere. -/
inductive Backend (α : Type) where
  | memory (m : Memory α)
  | file (f : File α)
  /-- Nothing lasts, and saving is not even tried. -/
  | nowhere
  deriving Inhabited

namespace Backend

variable [Scalar α]

/-- The positions in the file. No file is no positions; a file without positions
    cannot be read. -/
def readFile? (f : File α) : Option (Positions α) :=
  match f.content with
  | .absent => some {}
  | content => content.value?.bind Positions.ofFileJson?

/-- Loads the positions; none if there are some that cannot be read. -/
def load : Backend α → Backend α × Option (Positions α)
  | memory m =>
    (memory { m with loads := m.loads + 1 }, if m.failLoads then none else some m.saved)
  | file f => (file f, readFile? f)
  | nowhere => (nowhere, some {})

/-- Saves the positions, and says whether that went well. -/
def save (p : Positions α) : Backend α → Backend α × Option Bool
  | memory m =>
    if m.failSaves then (memory { m with saves := m.saves + 1 }, some false)
    else (memory { m with saves := m.saves + 1, saved := p }, some true)
  | file f =>
    let (f, ok) := f.write p.toJson
    (file f, some ok)
  | nowhere => (nowhere, none)

end Backend

end LiveDiagram
