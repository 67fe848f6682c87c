import LiveDiagram.Flowchart.Basic

namespace LiveDiagram.Flowchart

/-- The ids of the nodes, in order. -/
def nodeIds (d : Flowchart) : List String :=
  d.nodes.map Node.id

/-- The index of the first node with that id. -/
def firstIndex (d : Flowchart) (id : String) : Nat :=
  d.nodes.findIdx fun n => n.id == id

/-- The last node with that id. -/
def lastNode? (d : Flowchart) (id : String) : Option Node :=
  d.nodes.reverse.find? fun n => n.id == id

/-- An edge of which the flowchart has both nodes. -/
def Joins (d : Flowchart) (e : Edge) : Prop :=
  e ∈ d.edges ∧ e.source ∈ d.nodeIds ∧ e.target ∈ d.nodeIds

variable {d : Flowchart} {id : String}

theorem lastNode?_isSome : (d.lastNode? id).isSome ↔ id ∈ d.nodeIds := by
  simp [lastNode?, nodeIds, List.find?_isSome]

theorem lastNode?_eq_none : d.lastNode? id = none ↔ id ∉ d.nodeIds := by
  rw [← lastNode?_isSome, Option.not_isSome_iff_eq_none]

theorem id_of_lastNode? {n : Node} (hn : d.lastNode? id = some n) : n.id = id := by
  simpa using List.find?_some hn

/-- The first node with an id that is declared is one of the nodes. -/
theorem firstIndex_lt (hid : id ∈ d.nodeIds) : d.firstIndex id < d.nodes.length := by
  obtain ⟨n, hn, hid⟩ := List.mem_map.mp hid
  exact List.findIdx_lt_length_of_exists ⟨n, hn, by simpa using hid⟩

theorem id_firstIndex (h : d.firstIndex id < d.nodes.length) : (d.nodes[d.firstIndex id]).id = id := by
  have hfound := List.findIdx_getElem (p := fun n : Node => n.id == id) (w := h)
  exact beq_iff_eq.mp hfound

/-- Looking for an id among numbered nodes finds the first node with it and its
    number, wherever the numbers start. -/
private theorem zipIdx_find? (nodes : List Node) (start : Nat) (id : String) :
    (nodes.zipIdx start).find? (fun p => p.1.id == id) =
      (nodes.find? fun n => n.id == id).map fun n =>
        (n, start + nodes.findIdx fun n => n.id == id) := by
  induction nodes generalizing start with
  | nil => rfl
  | cons n nodes ih =>
    rw [List.zipIdx_cons, List.find?_cons, List.find?_cons, List.findIdx_cons]
    by_cases hn : (n.id == id) = true
    · simp [hn]
    · have hn : (n.id == id) = false := Bool.eq_false_iff.mpr hn
      simp only [hn, ih, cond_false]
      cases nodes.find? fun n => n.id == id with
      | none => rfl
      | some m => simp [Nat.add_assoc, Nat.add_comm]

/-- The first of the numbered nodes with an id has the index of the id. A
    flowchart may declare a node more than once, and the first declaration gives
    the node its place in the order. -/
theorem find?_zipIdx (d : Flowchart) (id : String) :
    (d.nodes.zipIdx.find? fun p => p.1.id == id) =
      (d.findNode? id).map fun n => (n, d.firstIndex id) := by
  rw [zipIdx_find?]
  simp [findNode?, firstIndex]

/-- The last of the numbered nodes with an id is the last node with it, which
    gives the node its label and its class. -/
theorem find?_reverse_zipIdx (d : Flowchart) (id : String) :
    (d.nodes.zipIdx.reverse.find? fun p => p.1.id == id).map Prod.fst = d.lastNode? id := by
  have hnodes : d.nodes.zipIdx.reverse.map Prod.fst = d.nodes.reverse := by
    rw [List.map_reverse, List.zipIdx_map_fst]
  unfold lastNode?
  rw [← hnodes, List.find?_map]
  rfl

theorem findNode?_isSome : (d.findNode? id).isSome ↔ id ∈ d.nodeIds := by
  simp [findNode?, nodeIds, List.find?_isSome]

end LiveDiagram.Flowchart
