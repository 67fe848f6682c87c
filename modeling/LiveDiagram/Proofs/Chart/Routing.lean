import LiveDiagram.Proofs.Chart.Removal
import LiveDiagram.Proofs.Stage.Outcome

namespace LiveDiagram

variable {α : Type} [Scalar α]

namespace EdgeShape

/-- The shape with the control points that it lacks, if it lacks some. -/
def completed (e : EdgeShape α) (source target : Rect α) : EdgeShape α :=
  if e.lacksControls then e.withControls source target else e

theorem completed_of_lacksControls_eq_false {e : EdgeShape α} (he : e.lacksControls = false)
    (source target : Rect α) : e.completed source target = e := by
  unfold completed
  rw [he]
  rfl

@[simp] theorem lacksControls_completed (e : EdgeShape α) (source target : Rect α) :
    (e.completed source target).lacksControls = false := by
  unfold completed
  split
  · simp [withControls, lacksControls]
  · exact Bool.eq_false_iff.mpr ‹_›

@[simp] theorem completed_completed (e : EdgeShape α) (source target : Rect α) :
    (e.completed source target).completed source target = e.completed source target :=
  completed_of_lacksControls_eq_false (lacksControls_completed e source target) source target

end EdgeShape

/-- The edge as routing it between two rectangles leaves it. -/
def EdgeItem.routed (e : EdgeItem α) (ends : Rect α × Rect α) : EdgeItem α :=
  { e with
    shape := e.shape.completed ends.1 ends.2
    route := (e.shape.completed ends.1 ends.2).route ends.1 ends.2 }

/-- Routing an edge twice is the same as routing it once: its shape is complete
    by then, and the route depends on it and the rectangles only. -/
@[simp] theorem EdgeItem.routed_routed (e : EdgeItem α) (ends : Rect α × Rect α) :
    (e.routed ends).routed ends = e.routed ends := by
  simp [routed]

namespace Chart

/-- The edge as routing it anew on the chart leaves it. An edge that lacks a
    node is left alone. -/
def reroute (c : Chart α) (e : EdgeItem α) : EdgeItem α :=
  match c.ends? e.edge with
  | some ends => e.routed ends
  | none => e

theorem reroute_of_ends? {c : Chart α} {e : EdgeItem α} {ends : Rect α × Rect α}
    (hends : c.ends? e.edge = some ends) : c.reroute e = e.routed ends := by
  unfold reroute
  rw [hends]

@[simp] theorem reroute_edge (c : Chart α) (e : EdgeItem α) : (c.reroute e).edge = e.edge := by
  unfold reroute
  split <;> rfl

/-- Routing an edge anew twice is the same as doing so once. -/
@[simp] theorem reroute_reroute (c : Chart α) (e : EdgeItem α) :
    c.reroute (c.reroute e) = c.reroute e := by
  cases hends : c.ends? e.edge with
  | none => simp [reroute, hends]
  | some ends =>
    rw [reroute_of_ends? hends]
    have hsame : c.ends? (e.routed ends).edge = some ends := hends
    rw [reroute_of_ends? hsame, EdgeItem.routed_routed]

/-- Routing an edge reads the chart at the two ends of the edge only. -/
theorem reroute_congr {c c' : Chart α} {e : EdgeItem α} (hends : c'.ends? e.edge = c.ends? e.edge) :
    c'.reroute e = c.reroute e := by
  unfold reroute
  rw [hends]

/-- The chart with an edge routed anew. -/
def rerouted (c : Chart α) (key : String) : Chart α :=
  match c.edges[key]? with
  | some e => c.setEdge key (c.reroute e)
  | none => c

@[simp] theorem rerouted_nodes (c : Chart α) (key : String) : (c.rerouted key).nodes = c.nodes := by
  unfold rerouted
  split <;> rfl

/-- Routing an edge is not seen at other edges. -/
theorem rerouted_getElem? (c : Chart α) (key other : String) :
    (c.rerouted key).edges[other]? =
      if key = other then c.edges[other]?.map c.reroute else c.edges[other]? := by
  unfold rerouted
  cases he : c.edges[key]? with
  | none =>
    by_cases heq : key = other
    · simp [← heq, he]
    · simp [heq]
  | some e =>
    by_cases heq : key = other
    · simp [← heq, he]
    · simp [heq]

section FoldRerouted

variable (c : Chart α) (keys : List String)

theorem foldl_rerouted_nodes : (keys.foldl rerouted c).nodes = c.nodes := by
  induction keys generalizing c with
  | nil => rfl
  | cons first keys ih => rw [List.foldl_cons, ih, rerouted_nodes]

/-- After some edges are routed, each of them is as routing it on the chart at
    the start leaves it, since routing the others moves no node. The induction
    is on the edges that are still to be routed. -/
theorem foldl_rerouted_getElem? (key : String) :
    (keys.foldl rerouted c).edges[key]? =
      if key ∈ keys then c.edges[key]?.map c.reroute else c.edges[key]? := by
  induction keys generalizing c with
  | nil => simp
  | cons first keys ih =>
    have hreroute : (c.rerouted first).reroute = c.reroute := by
      funext e
      exact reroute_congr (by simp [ends?])
    rw [List.foldl_cons, ih, rerouted_getElem?, hreroute]
    by_cases hfirst : first = key
    · have htwice : c.reroute ∘ c.reroute = c.reroute := funext (reroute_reroute c)
      simp [hfirst, htwice]
    · simp [hfirst, Ne.symm hfirst]

end FoldRerouted

/-- Every edge is as routing it anew would leave it: its shape is complete, and
    its route is the one between the current rectangles of its nodes. -/
def Routed (c : Chart α) : Prop :=
  ∀ (key : String) (e : EdgeItem α), c.edges[key]? = some e → c.reroute e = e

/-- The chart in which some edges were routed anew is routed if all others were
    before. -/
theorem routed_foldl_rerouted {c : Chart α} {keys : List String}
    (hothers : ∀ (key : String) (e : EdgeItem α), key ∉ keys → c.edges[key]? = some e →
      c.reroute e = e) :
    (keys.foldl rerouted c).Routed := by
  intro key e he
  have hreroute : (keys.foldl rerouted c).reroute e = c.reroute e :=
    reroute_congr (by simp [ends?, foldl_rerouted_nodes])
  rw [hreroute]
  rw [foldl_rerouted_getElem?] at he
  split at he
  · obtain ⟨f, -, rfl⟩ := Option.map_eq_some_iff.mp he
    exact reroute_reroute c f
  · exact hothers key e ‹_› he

/-- No edge is a curve that lacks a control point. -/
def Complete (c : Chart α) : Prop :=
  ∀ (key : String) (e : EdgeItem α), c.edges[key]? = some e → e.shape.lacksControls = false

end Chart

end LiveDiagram
