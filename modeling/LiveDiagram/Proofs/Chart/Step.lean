import Mathlib.Logic.Relation
import LiveDiagram.Proofs.Chart.Joining

namespace LiveDiagram

variable {α : Type} [Scalar α]

namespace ChartStage

/-- An elementary change of a stage with a chart. Ids of new nodes have a
    certain property. Each operation is a sequence of such changes, whether or
    not the surface refuses some of the drawing, so what every elementary change
    keeps is kept by all operations. -/
inductive Step (P : String → Prop) : ChartStage α → ChartStage α → Prop
  /-- Something is recorded. -/
  | record (s : ChartStage α) (store : Store α) (edits : List (String × Rect α)) :
      Step P s { s with store, edits }
  /-- Another edge, or none, is the selected one. -/
  | select (s : ChartStage α) (key : Option String) :
      Step P s { s with picture := { s.picture with selectedEdge := key } }
  /-- A node changes, but not in its edges. It keeps its style or gets the one
      of its class. -/
  | node {s : ChartStage α} {id : String} {n n' : NodeItem α} (hn : s.picture.nodes[id]? = some n)
      (hkeys : n'.edgeKeys = n.edgeKeys)
      (hstyle : n'.style = s.styleFor n'.className ∨
        n'.style = n.style ∧ n'.className = n.className) :
      Step P s (Stage.draw { s with picture := s.picture.setNode id n' } (n'.marks id)).state
  /-- A new node, which has no edges. -/
  | addNode {s : ChartStage α} {id : String} {n : NodeItem α} (hid : s.picture.nodes[id]? = none)
      (hname : P id) (hkeys : n.edgeKeys = []) (hstyle : n.style = s.styleFor n.className) :
      Step P s (Stage.draw { s with picture := s.picture.setNode id n } (n.marks id)).state
  /-- An edge changes, but not in what the flowchart states. It loses no control
      point. -/
  | edge {s : ChartStage α} {key : String} {e e' : EdgeItem α}
      (he : s.picture.edges[key]? = some e) (hedge : e'.edge = e.edge)
      (hcomplete : e.shape.lacksControls = false → e'.shape.lacksControls = false) :
      Step P s
        (Stage.draw { s with picture := s.picture.setEdge key e' } (e'.marks s.measure key)).state
  /-- A new edge between two nodes of the chart. -/
  | addEdge {s : ChartStage α} {e : EdgeItem α} (hkey : s.picture.edges[e.edge.key]? = none)
      (hends : (s.picture.ends? e.edge).isSome) (hcomplete : e.shape.lacksControls = false) :
      Step P s
        (Stage.draw { s with picture := (s.picture.joined e.edge).setEdge e.edge.key e }
          (e.marks s.measure e.edge.key)).state
  | removeEdge (s : ChartStage α) (key : String) : Step P s (s.removeEdge key)
  | removeNode (s : ChartStage α) (id : String) : Step P s (s.removeNode id)

/-- A sequence of elementary changes. -/
abbrev Steps (P : String → Prop) : ChartStage α → ChartStage α → Prop :=
  Relation.ReflTransGen (Step P)

variable {P : String → Prop} {s t : ChartStage α}

/-- What every elementary change keeps, a sequence of them keeps. -/
theorem Steps.induction {I : ChartStage α → Prop} (hsteps : Steps P s t)
    (hstep : ∀ s t, Step P s t → I s → I t) (hs : I s) : I t := by
  induction hsteps with
  | refl => exact hs
  | tail _ hlast ih => exact hstep _ _ hlast ih

theorem Step.sameSetup (h : Step P s t) : Stage.SameSetup s t := by
  cases h with
  | record store edits => exact ⟨rfl, rfl, rfl⟩
  | select key => exact ⟨rfl, rfl, rfl⟩
  | node hn hkeys hstyle =>
    refine Stage.SameSetup.draw ?_ _
    exact ⟨rfl, rfl, rfl⟩
  | addNode hid hname hkeys hstyle =>
    refine Stage.SameSetup.draw ?_ _
    exact ⟨rfl, rfl, rfl⟩
  | edge he hedge hcomplete =>
    refine Stage.SameSetup.draw ?_ _
    exact ⟨rfl, rfl, rfl⟩
  | addEdge hkey hends hcomplete =>
    refine Stage.SameSetup.draw ?_ _
    exact ⟨rfl, rfl, rfl⟩
  | removeEdge key => exact removeEdge_sameSetup s key
  | removeNode id => exact removeNode_sameSetup s id

theorem Steps.sameSetup (h : Steps P s t) : Stage.SameSetup s t :=
  h.induction (fun _ _ hstep hs => hs.trans hstep.sameSetup) (Stage.SameSetup.refl s)

/-- Elementary changes leave the classes: only a render changes them, before all
    else. -/
theorem Step.classes (h : Step P s t) : t.picture.classes = s.picture.classes := by
  cases h with
  | record store edits => rfl
  | select key => rfl
  | node hn hkeys hstyle => rfl
  | addNode hid hname hkeys hstyle => rfl
  | edge he hedge hcomplete => rfl
  | addEdge hkey hends hcomplete => exact Chart.joined_classes s.picture _
  | removeEdge key => rw [removeEdge_picture, Chart.withoutEdge_classes]
  | removeNode id => rw [removeNode_picture, Chart.withoutNode_classes]

theorem Steps.classes (h : Steps P s t) : t.picture.classes = s.picture.classes :=
  h.induction (I := fun u => u.picture.classes = s.picture.classes)
    (fun _ _ hstep hu => hstep.classes.trans hu) rfl

theorem Step.direction (h : Step P s t) : t.picture.direction = s.picture.direction := by
  cases h with
  | record store edits => rfl
  | select key => rfl
  | node hn hkeys hstyle => rfl
  | addNode hid hname hkeys hstyle => rfl
  | edge he hedge hcomplete => rfl
  | addEdge hkey hends hcomplete => exact Chart.joined_direction s.picture _
  | removeEdge key => rw [removeEdge_picture, Chart.withoutEdge_direction]
  | removeNode id => rw [removeNode_picture, Chart.withoutNode_direction]

theorem Steps.direction (h : Steps P s t) : t.picture.direction = s.picture.direction :=
  h.induction (I := fun u => u.picture.direction = s.picture.direction)
    (fun _ _ hstep hu => hstep.direction.trans hu) rfl

theorem Step.styleFor (h : Step P s t) : t.styleFor = s.styleFor := by
  funext className
  unfold ChartStage.styleFor
  rw [h.sameSetup.settings, h.classes]

theorem Steps.styleFor (h : Steps P s t) : t.styleFor = s.styleFor :=
  h.induction (I := fun u => u.styleFor = s.styleFor) (fun _ _ hstep hu => hstep.styleFor.trans hu) rfl

/-- Nodes and edges go on referring to each other. -/
theorem Step.linked (h : Step P s t) (hs : s.picture.Linked) : t.picture.Linked := by
  cases h with
  | record store edits => exact hs
  | select key => exact hs.congr rfl rfl
  | node hn hkeys hstyle => exact hs.setNode hn hkeys
  | addNode hid hname hkeys hstyle => exact hs.addNode hid hkeys
  | edge he hedge hcomplete => exact hs.setEdge he hedge
  | addEdge hkey hends hcomplete => exact hs.addEdge hkey hends
  | removeEdge key => exact removeEdge_picture s key ▸ hs.withoutEdge key
  | removeNode id => exact removeNode_picture s id ▸ hs.withoutNode id

/-- Nodes and edges refer to each other after a sequence of elementary
    changes. -/
theorem Steps.linked (h : Steps P s t) (hs : s.picture.Linked) : t.picture.Linked :=
  h.induction (fun _ _ hstep => hstep.linked) hs

/-- No curve loses a control point that it has. That the chart is linked tells
    which edges are left when a node goes. -/
theorem Step.complete (h : Step P s t) (hlinked : s.picture.Linked) (hs : s.picture.Complete) :
    t.picture.Complete := by
  intro key f hf
  cases h with
  | record store edits => exact hs key f hf
  | select key => exact hs _ f hf
  | node hn hkeys hstyle => exact hs key f hf
  | addNode hid hname hkeys hstyle => exact hs key f hf
  | edge he hedge hcomplete =>
    rw [Stage.draw_picture, Chart.setEdge_getElem?] at hf
    split at hf
    · cases hf
      exact hcomplete (hs _ _ he)
    · exact hs key f hf
  | addEdge hkey hends hcomplete =>
    rw [Stage.draw_picture, Chart.setEdge_getElem?, Chart.joined_edges] at hf
    split at hf
    · cases hf
      exact hcomplete
    · exact hs key f hf
  | removeEdge other =>
    rw [removeEdge_picture, Chart.withoutEdge_edges_getElem?] at hf
    split at hf
    · cases hf
    · exact hs key f hf
  | removeNode id =>
    rw [removeNode_picture, hlinked.withoutNode_getElem?, Option.filter_eq_some_iff] at hf
    exact hs key f hf.1

/-- A linked chart that is complete stays so in a sequence of elementary
    changes. -/
theorem Steps.linked_complete (h : Steps P s t) (hs : s.picture.Linked ∧ s.picture.Complete) :
    t.picture.Linked ∧ t.picture.Complete :=
  h.induction (I := fun u => u.picture.Linked ∧ u.picture.Complete)
    (fun _ _ hstep hu => ⟨hstep.linked hu.1, hstep.complete hu.1 hu.2⟩) hs

/-- All nodes have ids with the property of the new ones. -/
def Named (P : String → Prop) (s : ChartStage α) : Prop :=
  ∀ id ∈ s.picture.nodes, P id

/-- No elementary change brings in an id without the property. -/
theorem Step.named (h : Step P s t) (hs : s.Named P) : t.Named P := by
  intro id hid
  cases h with
  | record store edits => exact hs id hid
  | select key => exact hs id hid
  | node hn hkeys hstyle =>
    apply hs
    rw [Std.ExtTreeMap.mem_iff_isSome_getElem?, Stage.draw_picture, Chart.setNode_getElem?] at hid
    rw [Std.ExtTreeMap.mem_iff_isSome_getElem?]
    split at hid
    · rename_i heq
      rw [← heq, hn]
      rfl
    · exact hid
  | addNode hnone hname hkeys hstyle =>
    rw [Std.ExtTreeMap.mem_iff_isSome_getElem?, Stage.draw_picture, Chart.setNode_getElem?] at hid
    split at hid
    · rename_i heq
      exact heq ▸ hname
    · exact hs id (Std.ExtTreeMap.mem_iff_isSome_getElem?.mpr hid)
  | edge he hedge hcomplete => exact hs id hid
  | addEdge hkey hends hcomplete =>
    exact hs id ((Chart.mem_nodes_congr (Chart.joined_bare? _ _ _)).mp hid)
  | removeEdge key =>
    rw [removeEdge_picture, Chart.mem_nodes_congr (Chart.withoutEdge_bare? _ _ _)] at hid
    exact hs id hid
  | removeNode other =>
    rw [removeNode_picture, Chart.mem_nodes_iff, Chart.withoutNode_bare?] at hid
    apply hs
    rw [Chart.mem_nodes_iff]
    split at hid
    · cases hid
    · exact hid

/-- Every node has the style of its class under the settings. -/
def Styled (s : ChartStage α) : Prop :=
  ∀ (id : String) (n : NodeItem α), s.picture.bare? id = some n → n.style = s.styleFor n.className

/-- A node that changes keeps its style or gets the one of its class. Which
    style that is does not change. -/
theorem Step.styled (h : Step P s t) (hs : s.Styled) : t.Styled := by
  intro id m hm
  rw [h.styleFor]
  cases h with
  | record store edits => exact hs id m hm
  | select key => exact hs id m hm
  | node hn hkeys hstyle =>
    rw [Stage.draw_picture, Chart.setNode_bare?] at hm
    split at hm
    · cases hm
      rcases hstyle with hstyle | ⟨hstyle, hclass⟩
      · exact hstyle
      · have hold := hs _ _ (Chart.bare?_of_getElem? hn)
        exact (hstyle.trans hold).trans (congrArg s.styleFor hclass.symm)
    · exact hs id m hm
  | addNode hid hname hkeys hstyle =>
    rw [Stage.draw_picture, Chart.setNode_bare?] at hm
    split at hm
    · cases hm
      exact hstyle
    · exact hs id m hm
  | edge he hedge hcomplete => exact hs id m hm
  | @addEdge e hkey hends hcomplete =>
    have hbare := Chart.joined_bare? s.picture e.edge id
    exact hs id m (hbare ▸ hm)
  | removeEdge key =>
    rw [removeEdge_picture, Chart.withoutEdge_bare?] at hm
    exact hs id m hm
  | removeNode other =>
    rw [removeNode_picture, Chart.withoutNode_bare?] at hm
    split at hm
    · cases hm
    · exact hs id m hm

/-- After a sequence of elementary changes every node still has the style of its
    class. -/
theorem Steps.styled (h : Steps P s t) (hs : s.Styled) : t.Styled :=
  h.induction (fun _ _ hstep => hstep.styled) hs

end ChartStage

end LiveDiagram
