import LiveDiagram.Store.Basic
import LiveDiagram.Style.Settings
import LiveDiagram.Style.TextMeasure
import LiveDiagram.Surface.Basic

namespace LiveDiagram

/-- The state that an operation reached, and the refusal that stopped it, if one
    did. Nothing is taken back: what was done before the refusal stays. -/
structure Outcome (σ : Type) where
  state : σ
  refusal : Option Refusal := none

namespace Outcome

variable {σ τ : Type}

/-- The outcome of an operation that nothing stopped. -/
def done (state : σ) : Outcome σ :=
  { state }

/-- Goes on with another operation, unless a refusal stopped this one. -/
def andThen (o : Outcome σ) (f : σ → Outcome σ) : Outcome σ :=
  match o.refusal with
  | none => f o.state
  | some _ => o

/-- Does the operation for one item after the other, until a refusal stops
    it. -/
def forEach {ι : Type} (items : List ι) (f : ι → σ → Outcome σ) (state : σ) : Outcome σ :=
  items.foldl (fun o item => o.andThen (f item)) (done state)

/-- The outcome with its state seen as part of another. -/
def map (f : σ → τ) (o : Outcome σ) : Outcome τ :=
  { state := f o.state, refusal := o.refusal }

end Outcome

/-- A picture on a surface, with the store of its positions. Operations on the
    picture draw on the surface and record positions in the store. -/
structure Stage (π α : Type) where
  picture : π
  surface : Surface α := {}
  store : Store α
  settings : Settings := {}
  measure : Measure α
  /-- The rectangles that edits recorded in the store, the latest one last. -/
  edits : List (String × Rect α) := []

namespace Stage

variable {π ρ α : Type}

/-- The stage with another picture. -/
def withPicture (s : Stage π α) (picture : ρ) : Stage ρ α where
  picture
  surface := s.surface
  store := s.store
  settings := s.settings
  measure := s.measure
  edits := s.edits

/-- Draws on the surface. -/
def draw (s : Stage π α) (marks : List (Mark α)) : Outcome (Stage π α) :=
  let (surface, refusal) := s.surface.draw marks
  { state := { s with surface }, refusal }

/-- Erases parts from the surface, which nothing can refuse. -/
def eraseParts (s : Stage π α) (ids : List String) : Stage π α :=
  { s with surface := ids.foldl Surface.erase s.surface }

/-- Erases everything from the surface. -/
def clearSurface (s : Stage π α) : Stage π α :=
  { s with surface := s.surface.clear }

variable [Scalar α]

/-- Records the rectangle that an edit gave to a node or a participant. -/
def commit (s : Stage π α) (id : String) (r : Rect α) : Stage π α :=
  { s with store := s.store.setNode id r, edits := s.edits ++ [(id, r)] }

end Stage

end LiveDiagram
