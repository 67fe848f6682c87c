import LiveDiagram.Proofs.Chart.Idempotence
import LiveDiagram.Proofs.Chart.Rects
import LiveDiagram.Proofs.Number.Exact
import LiveDiagram.Proofs.Session.Writes

namespace LiveDiagram

namespace Scalar

theorem round_intCast (k : ℤ) : round (k : ℝ) = k := by
  have hfloor (j : ℤ) : ⌊(j : ℝ) + 1 / 2⌋ = j := by
    rw [Int.floor_intCast_add, show ⌊(1 / 2 : ℝ)⌋ = 0 by norm_num, add_zero]
  show (if (k : ℝ) < 0 then -(⌊-(k : ℝ) + 1 / 2⌋ : ℝ) else ⌊(k : ℝ) + 1 / 2⌋) = k
  split
  · rw [show -(k : ℝ) = (-k : ℤ) from (Int.cast_neg k).symm, hfloor, Int.cast_neg, neg_neg]
  · rw [hfloor]

theorem round_eq_intCast (x : ℝ) : ∃ k : ℤ, round x = k := by
  by_cases hx : x < 0
  · exact ⟨-⌊-x + 1 / 2⌋, (if_pos hx).trans (Int.cast_neg _).symm⟩
  · exact ⟨⌊x + 1 / 2⌋, if_neg hx⟩

end Scalar

namespace Layout

/-- What is on the grid is where it snaps to. With a pitch of zero or less there
    is no grid, and everything stays where it is. -/
theorem snap_snap (value pitch : ℝ) : snap (snap value pitch) pitch = snap value pitch := by
  simp only [snap, Scalar.zero_real]
  split
  · rfl
  · rename_i hpitch
    obtain ⟨k, hk⟩ := Scalar.round_eq_intCast (value / pitch)
    rw [hk, mul_div_assoc, div_self (not_le.mp hpitch).ne', mul_one, Scalar.round_intCast]

/-- A rectangle that was normalized for a label is normal for it: it is at least
    as big as the label needs, and on the grid. -/
theorem normalized_normalized (r : Rect ℝ) (text : Extent ℝ) :
    normalized (normalized r text) text = normalized r text := by
  simp only [normalized, snap_snap]

end Layout

variable {α : Type}

theorem NodeItem.fitted_fitted (measure : Measure ℝ) (n : NodeItem ℝ) :
    (n.fitted measure).fitted measure = n.fitted measure :=
  congrArg (fun rect => { n with rect }) (Layout.normalized_normalized n.rect (measure n.label))

namespace Chart

theorem setNode_self {c : Chart α} {id : String} {n : NodeItem α} (hn : c.nodes[id]? = some n) :
    c.setNode id n = c := by
  have hnodes : c.nodes.insert id n = c.nodes := by
    apply Std.ExtTreeMap.ext_getElem?
    intro other
    grind
  rw [setNode, hnodes]

end Chart

variable [Scalar α]

/-- The marks that draw some nodes of a chart. -/
def Chart.nodeMarks (c : Chart α) (ids : List String) : List (Mark α) :=
  ids.flatMap fun id => (c.nodes[id]?.map (NodeItem.marks id)).getD []

namespace Store

/-- The store after it has saved once more what it records. -/
def resave (s : Store α) : Store α :=
  s.load.replace s.positions

/-- Saving what is recorded changes no record, however often it is done. -/
theorem positions_iterate_resave (s : Store α) (count : Nat) : (resave^[count] s).positions = s.positions := by
  induction count generalizing s with
  | zero => rfl
  | succ count ih => exact ih s.resave

/-- Recording what is recorded is only another save. -/
theorem setNode_of_node? {s : Store α} {id : String} {r : Rect α} (hr : s.node? id = some r) :
    s.setNode id r = s.resave := by
  have hpositions : s.positions.setNode id r = s.positions := by
    have hnodes : s.positions.nodes.insert id r = s.positions.nodes := by
      apply Std.ExtTreeMap.ext_getElem?
      intro other
      rw [node?] at hr
      grind
    rw [Positions.setNode, hnodes]
  rw [setNode, hpositions, resave]

end Store

namespace ChartStage

/-- The stage after some nodes were normalized. -/
def normalizeNodes (s : ChartStage α) (ids : List String) : ChartStage α :=
  ids.foldl (fun s id => (s.normalizeNode id).state) s

/-- The marks that draw the whole chart, first the nodes and then the edges. -/
def allMarks (s : ChartStage α) : List (Mark α) :=
  s.picture.nodeMarks s.picture.nodes.keys ++ edgeMarks s.measure s.picture s.picture.edges.keys

/-- How a stage is after some nodes were normalized, by how it was before. Each
    of these nodes is fitted to its label and recorded as it then stands, and
    the others are left alone. -/
structure Fitted (s t : ChartStage α) (ids : List String) : Prop where
  setup : Stage.SameSetup s t
  nodes : ∀ id : String, t.picture.nodes[id]? =
    if id ∈ ids then s.picture.nodes[id]?.map (NodeItem.fitted s.measure) else s.picture.nodes[id]?
  recorded : ∀ (id : String) (n : NodeItem α), id ∈ ids → t.picture.nodes[id]? = some n →
    t.store.node? id = some n.rect
  others : ∀ id, id ∉ ids → t.store.node? id = s.store.node? id
  primitives : ∀ name : String,
    t.surface.primitives[name]? = Mark.effect (t.picture.nodeMarks ids) name s.surface.primitives[name]?

namespace Fitted

variable {s t u : ChartStage α} {ids ids' : List String}

/-- Nothing is normalized, and the stage is as it was. -/
theorem refl (s : ChartStage α) : Fitted s s [] where
  setup := .refl s
  nodes _ := by simp
  recorded _ _ hid := by cases hid
  others _ _ := rfl
  primitives _ := rfl

/-- First some nodes are normalized, and then others. No node may be among both,
    as the marks of its first normalizing would not be those of the node as it
    is in the end. -/
theorem trans (h : Fitted s t ids) (h' : Fitted t u ids') (hothers : ∀ id ∈ ids, id ∉ ids') :
    Fitted s u (ids ++ ids') where
  setup := h.setup.trans h'.setup
  nodes id := by
    rw [h'.nodes, h.nodes, h.setup.measure]
    by_cases hid : id ∈ ids
    · simp [hid, hothers id hid]
    · simp [hid]
  recorded id n hid hn := by
    by_cases hid' : id ∈ ids'
    · exact h'.recorded id n hid' hn
    · rw [h'.nodes, if_neg hid'] at hn
      rw [h'.others id hid']
      exact h.recorded id n ((List.mem_append.mp hid).resolve_right hid') hn
  others id hid := by
    obtain ⟨hid, hid'⟩ := not_or.mp (mt List.mem_append.mpr hid)
    exact (h'.others id hid').trans (h.others id hid)
  primitives name := by
    have hfirst : u.picture.nodeMarks ids = t.picture.nodeMarks ids := by
      refine List.flatMap_congr fun id hid => ?_
      rw [h'.nodes, if_neg (hothers id hid)]
    have hsplit : u.picture.nodeMarks (ids ++ ids') = t.picture.nodeMarks ids ++ u.picture.nodeMarks ids' := by
      rw [← hfirst, Chart.nodeMarks, List.flatMap_append]
      rfl
    rw [h'.primitives, h.primitives, hsplit, Mark.effect_append]

/-- Normalizing one node. The node has to be drawn without a refusal, since it
    is recorded after it is drawn. -/
theorem normalizeNode (haccepts : s.surface.Accepts) (id : String) : Fitted s (s.normalizeNode id).state [id] := by
  cases hn : s.picture.nodes[id]? with
  | none =>
    rw [normalizeNode_of_getElem?_eq_none hn]
    refine ⟨.refl s, fun other => ?_, fun other n hother hsome => ?_, fun _ _ => rfl, fun name => ?_⟩
    · by_cases heq : other = id <;> simp [heq, hn]
    · rw [List.mem_singleton.mp hother, Outcome.done_state, hn] at hsome
      cases hsome
    · simp [Chart.nodeMarks, hn]
  | some n =>
    let n' := n.fitted s.measure
    let t : ChartStage α := (Stage.draw { s with picture := s.picture.setNode id n' } (n'.marks id)).state
    have hnodes (other : String) : (t.commit id n'.rect).picture.nodes[other]? =
        if id = other then some n' else s.picture.nodes[other]? := s.picture.setNode_getElem? id other n'
    have hcommits := Stage.Commits.commit t id n'.rect
    rw [normalizeNode_eq haccepts hn]
    refine ⟨⟨rfl, rfl, s.surface.draw_refused (n'.marks id)⟩, fun other => ?_, fun other m hother hm => ?_,
      fun other hother => ?_, fun name => ?_⟩
    · rw [hnodes]
      by_cases heq : id = other
      · simp [← heq, hn, n']
      · simp [heq, Ne.symm heq]
    · obtain rfl := List.mem_singleton.mp hother
      rw [hnodes, if_pos rfl] at hm
      rw [hcommits.node?, if_pos rfl, ← Option.some.inj hm]
    · rw [hcommits.node?, if_neg fun heq => hother (List.mem_singleton.mpr heq.symm)]
      rfl
    · have hmarks : (t.commit id n'.rect).picture.nodeMarks [id] = n'.marks id := by
        rw [Chart.nodeMarks, List.flatMap_singleton, hnodes, if_pos rfl]
        rfl
      rw [hmarks]
      exact haccepts.draw_getElem? (n'.marks id) name

end Fitted

section Layouts

variable {s : ChartStage α}

/-- Normalizing some nodes one by one. They must be different, as all the nodes
    of a chart are. -/
theorem fitted_normalizeNodes (haccepts : s.surface.Accepts) {ids : List String} (hids : ids.Nodup) :
    Fitted s (s.normalizeNodes ids) ids := by
  induction ids generalizing s with
  | nil => exact .refl s
  | cons id ids ih =>
    obtain ⟨hid, hids⟩ := List.nodup_cons.mp hids
    have hfirst := Fitted.normalizeNode haccepts id
    exact hfirst.trans (ih (hfirst.setup.accepts haccepts) hids) fun other hother =>
      List.mem_singleton.mp hother ▸ hid

/-- Routing edges leaves the nodes where they are, and their records too. -/
theorem updateEdges_nodes (s : ChartStage α) (keys : List String) :
    (s.updateEdges keys).picture.nodes = s.picture.nodes ∧
      ∀ id, (s.updateEdges keys).store.node? id = s.store.node? id := by
  refine ⟨by rw [updateEdges_picture, Chart.foldl_rerouted_nodes], fun id => ?_⟩
  unfold updateEdges
  refine foldl_view (fun t : ChartStage α => t.store.node? id) (fun t key => ?_) keys s
  rcases updateEdge_cases t key with ⟨heq, -⟩ | ⟨e, ends, -, -, -, heq⟩
  · rw [heq]
    rfl
  · rw [heq, Stage.draw_store]
    exact Store.node?_routed e ends id

theorem keys_updateEdges (s : ChartStage α) (keys : List String) :
    (s.updateEdges keys).picture.edges.keys = s.picture.edges.keys := by
  apply keys_eq_of_mem_iff
  intro key
  rw [Std.ExtTreeMap.mem_iff_isSome_getElem?, Std.ExtTreeMap.mem_iff_isSome_getElem?, updateEdges_picture,
    Chart.foldl_rerouted_getElem?]
  split <;> simp

/-- How a stage is after it was normalized, by how it was before. The rectangles
    of all nodes are fitted and recorded, the routes run between them, and what
    is on the surface is drawn from the chart. -/
structure Normalized (s t : ChartStage α) : Prop where
  setup : Stage.SameSetup s t
  nodes : ∀ id : String, t.picture.nodes[id]? = s.picture.nodes[id]?.map (NodeItem.fitted s.measure)
  recorded : ∀ (id : String) (n : NodeItem α), t.picture.nodes[id]? = some n → t.store.node? id = some n.rect
  routed : t.picture.Routed
  primitives : ∀ name : String,
    t.surface.primitives[name]? = Mark.effect t.allMarks name s.surface.primitives[name]?

/-- Once all nodes were normalized, routing the edges makes the last marks.
    Edges may have parts under the ids of nodes, which is why the marks are
    taken together. -/
theorem Fitted.updateEdges {t : ChartStage α} (h : Fitted s t s.picture.nodes.keys) (haccepts : t.surface.Accepts) :
    Normalized s (t.updateEdges t.picture.edges.keys) := by
  obtain ⟨hnodes, hrecords⟩ := updateEdges_nodes t t.picture.edges.keys
  have hsetup := updateEdges_sameSetup t t.picture.edges.keys
  have hfound (id : String) : (t.updateEdges t.picture.edges.keys).picture.nodes[id]? =
      s.picture.nodes[id]?.map (NodeItem.fitted s.measure) := by
    rw [hnodes, h.nodes]
    split
    · rfl
    · rename_i hid
      have hnone : s.picture.nodes[id]? = none :=
        Std.ExtTreeMap.getElem?_eq_none fun hmem => hid (Std.ExtTreeMap.mem_keys.mpr hmem)
      rw [hnone, Option.map_none]
  have hkeys : (t.updateEdges t.picture.edges.keys).picture.nodes.keys = s.picture.nodes.keys := by
    apply keys_eq_of_mem_iff
    intro id
    rw [Std.ExtTreeMap.mem_iff_isSome_getElem?, Std.ExtTreeMap.mem_iff_isSome_getElem?, hfound, Option.isSome_map]
  refine ⟨h.setup.trans hsetup, hfound, fun id n hn => ?_, updateEdges_keys_routed t, fun name => ?_⟩
  · have hid : id ∈ s.picture.nodes.keys := by
      rw [← hkeys, Std.ExtTreeMap.mem_keys, Std.ExtTreeMap.mem_iff_isSome_getElem?, hn]
      rfl
    rw [hrecords]
    exact h.recorded id n hid (hnodes ▸ hn)
  · have hmarks : (t.updateEdges t.picture.edges.keys).picture.nodeMarks s.picture.nodes.keys =
        t.picture.nodeMarks s.picture.nodes.keys := by
      unfold Chart.nodeMarks
      rw [hnodes]
    rw [updateEdges_primitives _ t haccepts, h.primitives, ← Mark.effect_append, allMarks, hkeys, hmarks,
      keys_updateEdges, hsetup.measure]

theorem normalized_normalizeLayout (haccepts : s.surface.Accepts) : Normalized s s.normalizeLayout := by
  have hfitted : Fitted s (s.normalizeNodes s.picture.nodes.keys) s.picture.nodes.keys :=
    fitted_normalizeNodes haccepts Std.ExtTreeMap.nodup_keys
  exact hfitted.updateEdges (hfitted.setup.accepts haccepts)

/-- Every node fits its label and the grid, and is recorded where it stands. -/
structure Snapped (s : ChartStage α) : Prop where
  fits : ∀ (id : String) (n : NodeItem α), s.picture.nodes[id]? = some n → n.fitted s.measure = n
  recorded : ∀ (id : String) (n : NodeItem α), s.picture.nodes[id]? = some n → s.store.node? id = some n.rect

/-- Whether the nodes are snapped is seen at the chart, the measure and what is
    recorded. -/
theorem Snapped.congr (hs : s.Snapped) {t : ChartStage α} (hpicture : t.picture = s.picture)
    (hmeasure : t.measure = s.measure) (hpositions : t.store.positions = s.store.positions) : t.Snapped where
  fits id n hn := by
    rw [hmeasure]
    exact hs.fits id n (hpicture ▸ hn)
  recorded id n hn := by
    rw [Store.node?, hpositions]
    exact hs.recorded id n (hpicture ▸ hn)

/-- Normalizing a node that is snapped saves what is recorded, and changes
    nothing on the chart. -/
theorem Snapped.normalizeNode (hs : s.Snapped) (haccepts : s.surface.Accepts) {id : String}
    (hid : id ∈ s.picture.nodes) :
    (s.normalizeNode id).state.picture = s.picture ∧ (s.normalizeNode id).state.store = s.store.resave := by
  obtain ⟨n, hn⟩ := Option.isSome_iff_exists.mp (Std.ExtTreeMap.mem_iff_isSome_getElem?.mp hid)
  have hstep := normalizeNode_eq haccepts hn
  rw [hs.fits id n hn] at hstep
  rw [hstep]
  exact ⟨Chart.setNode_self hn, Store.setNode_of_node? (hs.recorded id n hn)⟩

/-- Normalizing nodes that are snapped saves what is recorded once for each of
    them. The induction is on the nodes that are still to be normalized. -/
theorem Snapped.normalizeNodes (hs : s.Snapped) (haccepts : s.surface.Accepts) {ids : List String}
    (hids : ∀ id ∈ ids, id ∈ s.picture.nodes) :
    (s.normalizeNodes ids).picture = s.picture ∧
      (s.normalizeNodes ids).store = Store.resave^[ids.length] s.store := by
  induction ids generalizing s with
  | nil => exact ⟨rfl, rfl⟩
  | cons id ids ih =>
    obtain ⟨hid, hids⟩ := List.forall_mem_cons.mp hids
    obtain ⟨hpicture, hstore⟩ := hs.normalizeNode haccepts hid
    have hsetup := (Fitted.normalizeNode haccepts id).setup
    have hpositions : (s.normalizeNode id).state.store.positions = s.store.positions := by rw [hstore]; rfl
    have hsnapped := hs.congr hpicture hsetup.measure hpositions
    obtain ⟨hpicture', hstore'⟩ := ih hsnapped (hsetup.accepts haccepts) (hpicture.symm ▸ hids)
    refine ⟨hpicture'.trans hpicture, hstore'.trans ?_⟩
    rw [hstore]
    rfl

/-- Normalizing the stage again would find nothing to change: the nodes are
    snapped, the routes are up to date, and drawing everything again would leave
    the surface as it is. -/
structure Normal (s : ChartStage α) : Prop extends Snapped s where
  routed : s.picture.Routed
  drawn : ∀ name : String, Mark.effect s.allMarks name s.surface.primitives[name]? = s.surface.primitives[name]?

/-- With exact scalars a stage that was normalized is normal. With rounded ones
    a corner need not snap to itself. -/
theorem normal_normalizeLayout {s : ChartStage ℝ} (haccepts : s.surface.Accepts) : s.normalizeLayout.Normal := by
  have h := normalized_normalizeLayout haccepts
  refine ⟨⟨fun id n hn => ?_, h.recorded⟩, h.routed, fun name => ?_⟩
  · rw [h.nodes] at hn
    obtain ⟨m, -, rfl⟩ := Option.map_eq_some_iff.mp hn
    rw [h.setup.measure, m.fitted_fitted]
  · rw [h.primitives, Mark.effect_effect]

/-- Normalizing a normal stage saves what is recorded, and changes nothing else.
    It saves once for each node, because it does not look whether something
    changed. -/
theorem Normal.normalizeLayout_eq (hs : s.Normal) (haccepts : s.surface.Accepts) :
    s.normalizeLayout.picture = s.picture ∧ s.normalizeLayout.surface.primitives = s.surface.primitives ∧
      s.normalizeLayout.store = Store.resave^[s.picture.nodes.size] s.store := by
  have hkeys : ∀ id ∈ s.picture.nodes.keys, id ∈ s.picture.nodes := fun _ => Std.ExtTreeMap.mem_keys.mp
  obtain ⟨hpicture, hstore⟩ := hs.toSnapped.normalizeNodes haccepts hkeys
  obtain ⟨hpicture', hstore'⟩ := updateEdges_of_routed (s := s.normalizeNodes s.picture.nodes.keys)
    (by rw [hpicture]; exact hs.routed) (s.normalizeNodes s.picture.nodes.keys).picture.edges.keys
  have h := normalized_normalizeLayout haccepts
  have hsame : s.normalizeLayout.picture = s.picture := hpicture'.trans hpicture
  refine ⟨hsame, Std.ExtTreeMap.ext_getElem? fun name => ?_, (hstore'.trans hstore).trans ?_⟩
  · have hmarks : s.normalizeLayout.allMarks = s.allMarks := by rw [allMarks, allMarks, hsame, h.setup.measure]
    rw [h.primitives, hmarks, hs.drawn]
  · rw [Std.ExtTreeMap.length_keys]

end Layouts

end ChartStage

namespace Session

/-- Normalizing the layout of a session with a chart is normalizing the layout
    of the chart. -/
theorem call_normalizeLayout {s : Session α} {c : Chart α} (hc : s.picture = .chart c) :
    s.call (.editChart .normalizeLayout) =
      Stage.withPicture (ChartStage.normalizeLayout (s.withPicture c))
        (.chart (ChartStage.normalizeLayout (s.withPicture c)).picture) := by
  rw [call, onChart_of_chart hc]
  rfl

/-- What normalizing the layout leaves is recorded, and with exact scalars
    normalizing it again changes nothing: the positions that are recorded are
    saved once more for each node. The surface must refuse nothing, since a node
    that it refuses is not recorded. Sessions that show no flowchart are
    included, as nothing happens there. -/
theorem normalizeLayout_normalizeLayout (s : Session ℝ) (haccepts : s.surface.Accepts) :
    let once := s.call (.editChart .normalizeLayout)
    let twice := once.call (.editChart .normalizeLayout)
    (∀ (id : String) (n : NodeItem ℝ), once.picture.chartOrEmpty.nodes[id]? = some n →
      once.store.node? id = some n.rect) ∧
    twice.picture = once.picture ∧ twice.surface.primitives = once.surface.primitives ∧
    twice.store.positions = once.store.positions ∧
    twice.store = Store.resave^[once.picture.chartOrEmpty.nodes.size] once.store := by
  intro once twice
  cases hpicture : s.picture with
  | timeline t =>
    have hcall : s.call (.editChart .normalizeLayout) = s := by rw [call, onChart, hpicture]; rfl
    have hsame : twice = once := by simp only [twice, once, hcall]
    have hnodes : once.picture.chartOrEmpty.nodes = ∅ := by simp only [once, hcall, hpicture]; rfl
    rw [hsame, hnodes]
    refine ⟨fun id n hn => ?_, rfl, rfl, rfl, rfl⟩
    cases hn
  | chart c =>
    let t : ChartStage ℝ := ChartStage.normalizeLayout (s.withPicture c)
    have honce : once = t.withPicture (.chart t.picture) := call_normalizeLayout hpicture
    have hnormal : t.Normal := ChartStage.normal_normalizeLayout haccepts
    have haccepts' : t.surface.Accepts := (ChartStage.normalized_normalizeLayout haccepts).setup.accepts haccepts
    have htwice : twice = t.normalizeLayout.withPicture (.chart t.normalizeLayout.picture) := by
      have hagain := call_normalizeLayout (s := once) (c := t.picture) (by rw [honce]; rfl)
      rw [show twice = _ from hagain, honce]
      rfl
    obtain ⟨hsame, hprimitives, hstore⟩ := hnormal.normalizeLayout_eq haccepts'
    rw [htwice, honce]
    refine ⟨hnormal.recorded, congrArg Picture.chart hsame, hprimitives, ?_, hstore⟩
    exact (congrArg Store.positions hstore).trans (Store.positions_iterate_resave t.store _)

/-- Two nodes with a curve between them, one of which was moved to the left of
    the origin, just between two lines of the grid. -/
noncomputable def betweenLines : Session ℝ :=
  (start (fun _ => ⟨0, 0⟩) Store.inMemory).run [.render (.flowchart oneEdge),
    .editChart (.toggleCurve (Edge.key { source := "a", target := "b" })), .editChart (.moveNode "a" ⟨-70, 90⟩)]

/-- A corner between two lines of the grid goes to the line that is further from
    the origin. -/
theorem normalized_betweenLines {r : Rect ℝ} (hx : r.x = -70) (hy : r.y = 90) :
    Layout.normalized r ⟨0, 0⟩ = ⟨-80, 100, 80, 48⟩ := by
  have hround : Scalar.round (-(7 / 2) : ℝ) = -4 ∧ Scalar.round (9 / 2 : ℝ) = 5 := by
    constructor
    · show (if -(7 / 2 : ℝ) < 0 then -(⌊-(-(7 / 2 : ℝ)) + 1 / 2⌋ : ℝ)
        else ⌊-(7 / 2 : ℝ) + 1 / 2⌋) = -4
      norm_num
    · show (if (9 / 2 : ℝ) < 0 then -(⌊-(9 / 2 : ℝ) + 1 / 2⌋ : ℝ) else ⌊(9 / 2 : ℝ) + 1 / 2⌋) = 5
      norm_num
  have hceil : Scalar.ceil (0 : ℝ) = 0 := by
    show (⌈(0 : ℝ)⌉ : ℝ) = 0
    norm_num
  simp only [Layout.normalized, Layout.snap, Layout.snapPitch, Layout.fitMinWidth, Layout.fitMinHeight,
    Layout.fitPadding, Scalar.greater, Scalar.zero_real, Scalar.numeral_real, hx, hy, hceil]
  norm_num [hround]

/-- A node between two lines of the grid goes to one of them, with its record,
    and stays there when the layout is normalized again. -/
theorem normalizeLayout_betweenLines :
    let once := betweenLines.call (.editChart .normalizeLayout)
    let twice := once.call (.editChart .normalizeLayout)
    betweenLines.surface.Accepts ∧ once.store.node? "a" = some ⟨-80, 100, 80, 48⟩ ∧
    (∀ (id : String) (n : NodeItem ℝ), once.picture.chartOrEmpty.nodes[id]? = some n →
      once.store.node? id = some n.rect) ∧
    twice.picture = once.picture ∧ twice.surface.primitives = once.surface.primitives ∧
    twice.store.positions = once.store.positions ∧
    twice.store = Store.resave^[once.picture.chartOrEmpty.nodes.size] once.store := by
  have haccepts : betweenLines.surface.Accepts := rfl
  have hall := normalizeLayout_normalizeLayout betweenLines haccepts
  refine ⟨haccepts, ?_, hall⟩
  obtain ⟨c, m, hc, hm, hx, hy⟩ : ∃ c m, betweenLines.picture = .chart c ∧ c.nodes["a"]? = some m ∧
      m.rect.x = -70 ∧ m.rect.y = 90 := ⟨_, _, rfl, rfl, rfl, rfl⟩
  have hfound : (betweenLines.call (.editChart .normalizeLayout)).picture.chartOrEmpty.nodes["a"]? =
      some (m.fitted betweenLines.measure) := by
    have hnodes := (ChartStage.normalized_normalizeLayout (s := betweenLines.withPicture c) haccepts).nodes "a"
    rw [call_normalizeLayout hc]
    exact hnodes.trans (congrArg (Option.map _) hm)
  rw [hall.1 "a" _ hfound]
  exact congrArg some (normalized_betweenLines hx hy)

end Session

end LiveDiagram
