import LiveDiagram.Number.Double
import LiveDiagram.Proofs.Chart.Rects
import LiveDiagram.Proofs.Number.Exact
import LiveDiagram.Proofs.Session.Writes

namespace LiveDiagram

namespace Layout

/-- The column and the row of the default place of the node with that index. -/
def cell (index : Nat) (direction : Direction) : Nat × Nat :=
  if direction.isHorizontal then (index, 0) else (index % nodesPerRow, index / nodesPerRow)

theorem index_eq_of_cell_eq {i j : Nat} {direction : Direction} (h : cell i direction = cell j direction) :
    i = j := by
  unfold cell at h
  split at h
  · exact congrArg Prod.fst h
  · have hcolumn : i % nodesPerRow = j % nodesPerRow := congrArg Prod.fst h
    have hrow : i / nodesPerRow = j / nodesPerRow := congrArg Prod.snd h
    rw [← Nat.div_add_mod i nodesPerRow, ← Nat.div_add_mod j nodesPerRow, hcolumn, hrow]

variable (α : Type) [Scalar α]

/-- Different columns are at different places, and so are different rows, the
    first of which is at the top. This holds of exact scalars; with rounding,
    places far enough out could coincide. -/
structure Separates : Prop where
  column : ∀ i j : Nat, (Scalar.ofNat i * nodeSpacingX : α) = Scalar.ofNat j * nodeSpacingX ↔ i = j
  row : ∀ i j : Nat, (Scalar.ofNat i * nodeSpacingY : α) = Scalar.ofNat j * nodeSpacingY ↔ i = j
  top : (Scalar.ofNat 0 * nodeSpacingY : α) = 0

variable {α}

/-- Default places are the same just when their cells are, also in different
    directions. -/
theorem nodeRect_eq_iff (h : Separates α) {i j : Nat} {direction direction' : Direction} :
    (nodeRect i direction : Rect α) = nodeRect j direction' ↔ cell i direction = cell j direction' := by
  have hrect (i : Nat) (direction : Direction) : (nodeRect i direction : Rect α) =
      ⟨Scalar.ofNat (cell i direction).1 * nodeSpacingX, Scalar.ofNat (cell i direction).2 * nodeSpacingY,
        nodeWidth, nodeHeight⟩ := by
    unfold nodeRect cell
    split
    · rw [h.top]
    · rfl
  rw [hrect, hrect, Rect.mk.injEq, h.column, h.row, Prod.ext_iff]
  simp

theorem separates_real : Separates ℝ where
  column i j := by simp [nodeSpacingX]
  row i j := by simp [nodeSpacingY]
  top := by simp

end Layout

namespace Flowchart

/-- The flowchart with which the node came onto the chart: the first of the
    latest ones that all have it. -/
def introducing? (ds : List Flowchart) (id : String) : Option Flowchart :=
  (ds.reverse.takeWhile fun d => d.nodeIds.contains id).getLast?

/-- When one more flowchart is shown, its new nodes came with it, and the others
    with what they came with before. A node that comes back counts as new. -/
theorem introducing?_append_singleton (ds : List Flowchart) (d : Flowchart) (id : String) :
    introducing? (ds ++ [d]) id =
      if id ∈ d.nodeIds then some ((introducing? ds id).getD d) else none := by
  unfold introducing?
  rw [List.reverse_append, List.reverse_singleton, List.singleton_append, List.takeWhile_cons]
  by_cases h : id ∈ d.nodeIds
  · simp [h, List.getLast?_cons]
  · simp [h]

theorem mem_of_introducing? {ds : List Flowchart} {d : Flowchart} {id : String}
    (h : introducing? ds id = some d) : id ∈ d.nodeIds := by
  have hmem := List.mem_of_getLast? h
  simpa using List.all_eq_true.mp List.all_takeWhile d hmem

/-- The cell of a node that has no record. -/
def cell (d : Flowchart) (id : String) : Nat × Nat :=
  Layout.cell (d.firstIndex id) d.direction

theorem eq_of_cell_eq {d : Flowchart} {a b : String} (ha : a ∈ d.nodeIds) (h : d.cell a = d.cell b) : a = b := by
  have hindex : d.firstIndex a = d.firstIndex b := Layout.index_eq_of_cell_eq h
  have hlt : d.firstIndex a < d.nodes.length := firstIndex_lt ha
  have hb := id_firstIndex (hindex ▸ hlt : d.firstIndex b < d.nodes.length)
  rw [← id_firstIndex hlt, ← hb]
  simp only [hindex]

/-- The default place of a node. -/
def defaultRect {α : Type} [Scalar α] (d : Flowchart) (id : String) : Rect α :=
  Layout.nodeRect (d.firstIndex id) d.direction

end Flowchart

variable {α : Type} [Scalar α]

/-- The nodes of the chart stand where the flowcharts put them with which they
    came. -/
def Chart.Introduces (c : Chart α) (ds : List Flowchart) : Prop :=
  ∀ id, c.rect? id = (Flowchart.introducing? ds id).map fun d => d.defaultRect id

/-- Nodes that are there stay where they are, and new ones get the cells of the
    flowchart. -/
theorem ChartStage.render_introduces {s : ChartStage α} {ds : List Flowchart}
    (hstore : ∀ id, s.store.node? id = none) (hs : s.picture.Introduces ds) (d : Flowchart) :
    (s.render d).picture.Introduces (ds ++ [d]) := by
  intro id
  rw [render_rect?, hs id, hstore, Flowchart.introducing?_append_singleton]
  split
  · cases Flowchart.introducing? ds id <;> rfl
  · rfl

namespace Session

/-- After some flowcharts were shown from the start, each node stands where the
    flowchart put it with which it came, and still no places are recorded. -/
theorem introduces_run_flowcharts (measure : Measure α) {store : Store α} (hstore : ∀ id, store.node? id = none)
    (ds : List Flowchart) :
    ∃ c, ((start measure store).run (ds.map fun d => .render (.flowchart d))).picture = .chart c ∧
      c.Introduces ds ∧
      ∀ id, ((start measure store).run (ds.map fun d => .render (.flowchart d))).store.node? id = none := by
  induction ds using List.reverseRecOn with
  | nil => exact ⟨.empty, rfl, fun id => by simp [Chart.rect?, Chart.empty, Flowchart.introducing?], hstore⟩
  | append_singleton ds d ih =>
    have hsound := sound_run measure store (ds.map fun d => .render (.flowchart d))
    rw [List.map_append, List.map_singleton, run, List.foldl_append, List.foldl_cons, List.foldl_nil]
    generalize hs : (ds.map fun d => Call.render (.flowchart d)).foldl call (start measure store) = s
    rw [run, hs] at ih hsound
    obtain ⟨c, hc, hintroduces, hnone⟩ := ih
    have hstage : s.chartStage = s.withPicture c := by
      rw [chartStage, hc]
    have hrendered : (ChartStage.render (s.withPicture c) d).picture.Introduces (ds ++ [d]) :=
      ChartStage.render_introduces hnone hintroduces d
    refine ⟨_, rfl, ?_, fun id => ?_⟩
    · rw [hstage]
      exact hrendered
    · exact ((hsound.renderFlowchart_completes d).1.node? id).trans (hnone id)

/-- Over a store that knows no places, and with nothing moved, each node stands
    in the cell of its index in the flowchart with which it came onto the chart.
    So two nodes have the same rectangle just when these cells are the same, and
    never if they came with one flowchart. If they came with different ones, the
    index of the one says nothing about that of the other. -/
theorem cells_run_flowcharts (measure : Measure α) {store : Store α} (hstore : ∀ id, store.node? id = none)
    (ds : List Flowchart) :
    ∃ c, ((start measure store).run (ds.map fun d => .render (.flowchart d))).picture = .chart c ∧
      (∀ id, c.rect? id = (Flowchart.introducing? ds id).map fun d => d.defaultRect id) ∧
      (Layout.Separates α → ∀ a b r q, c.rect? a = some r → c.rect? b = some q →
        ∃ d e, Flowchart.introducing? ds a = some d ∧ Flowchart.introducing? ds b = some e ∧
          (r = q ↔ d.cell a = e.cell b) ∧ (d = e → a ≠ b → r ≠ q)) := by
  obtain ⟨c, hc, hrects, -⟩ := introduces_run_flowcharts measure hstore ds
  refine ⟨c, hc, hrects, fun hgrid a b r q hr hq => ?_⟩
  obtain ⟨d, hd, rfl⟩ := Option.map_eq_some_iff.mp ((hrects a).symm.trans hr)
  obtain ⟨e, he, rfl⟩ := Option.map_eq_some_iff.mp ((hrects b).symm.trans hq)
  have hiff : (d.defaultRect a : Rect α) = e.defaultRect b ↔ d.cell a = e.cell b := Layout.nodeRect_eq_iff hgrid
  refine ⟨d, e, hd, he, hiff, ?_⟩
  rintro rfl hne hsame
  exact hne (Flowchart.eq_of_cell_eq (Flowchart.mem_of_introducing? hd) (hiff.mp hsame))

/-- Two texts, the second of which states a node before that of the first. -/
def insertedTexts : List String :=
  ["flowchart TD\na[A]", "flowchart TD\nb[B]\na[A]\nc[C]"]

/-- The flowcharts of these texts. -/
def insertedFlowcharts : List Flowchart :=
  [{ nodes := [⟨"a", "A", none⟩] },
    { nodes := [⟨"b", "B", none⟩, ⟨"a", "A", none⟩, ⟨"c", "C", none⟩] }]

theorem ofText_insertedTexts :
    insertedTexts.map Diagram.ofText = insertedFlowcharts.map Diagram.flowchart :=
  rfl

/-- The node that the second text puts first comes to stand on the one that is
    there, and the third node stands elsewhere. -/
theorem cells_run_flowcharts_inserted :
    ∃ c, ((start (fun _ => ⟨0, 0⟩) (Store.inMemory : Store ℝ)).run
        ((insertedTexts.map Diagram.ofText).map .render)).picture = .chart c ∧
      ∃ r q, c.rect? "a" = some r ∧ c.rect? "b" = some r ∧ c.rect? "c" = some q ∧ r ≠ q := by
  obtain ⟨c, hc, hrects, hcells⟩ := cells_run_flowcharts (fun _ => ⟨0, 0⟩) (Store.node?_inMemory (α := ℝ))
    insertedFlowcharts
  have ha : c.rect? "a" = some (Layout.nodeRect 0 .topDown) := hrects "a"
  have hb : c.rect? "b" = some (Layout.nodeRect 0 .topDown) := hrects "b"
  have hthird : c.rect? "c" = some (Layout.nodeRect 2 .topDown) := hrects "c"
  refine ⟨c, ?_, _, _, ha, hb, hthird, ?_⟩
  · rw [ofText_insertedTexts, List.map_map]
    exact hc
  · obtain ⟨d, e, hd, he, -, hapart⟩ := hcells Layout.separates_real "b" "c" _ _ hb hthird
    have hsame : d = e := Option.some.inj (hd.symm.trans he)
    exact hapart hsame (by decide)

/-- Two nodes have one rectangle when a later text puts another node first. -/
theorem not_apart_run_flowcharts :
    ¬ ∀ texts : List String, (∀ text ∈ texts, ∃ d, Diagram.ofText text = .flowchart d) →
      ∀ c : Chart Float, ((start (fun _ => ⟨0, 0⟩) (Store.inMemory : Store Float)).run
          ((texts.map Diagram.ofText).map .render)).picture = .chart c →
        ∀ (a b : String) (n m : NodeItem Float), c.nodes[a]? = some n → c.nodes[b]? = some m → a ≠ b →
          n.rect ≠ m.rect := by
  intro hapart
  obtain ⟨c, hc, hrects, -⟩ :=
    introduces_run_flowcharts (fun _ => ⟨0, 0⟩) (Store.node?_inMemory (α := Float))
    insertedFlowcharts
  have htexts : ∀ text ∈ insertedTexts, ∃ d, Diagram.ofText text = .flowchart d := by
    intro text htext
    have hmem : Diagram.ofText text ∈ insertedFlowcharts.map Diagram.flowchart :=
      ofText_insertedTexts ▸ List.mem_map_of_mem htext
    obtain ⟨d, -, hd⟩ := List.mem_map.mp hmem
    exact ⟨d, hd.symm⟩
  obtain ⟨n, hn, hnrect⟩ := Option.map_eq_some_iff.mp (hrects "a")
  obtain ⟨m, hm, hmrect⟩ := Option.map_eq_some_iff.mp (hrects "b")
  refine hapart insertedTexts htexts c ?_ "a" "b" n m hn hm (by decide) (hnrect.trans hmrect.symm)
  rw [ofText_insertedTexts, List.map_map]
  exact hc

end Session

end LiveDiagram
