import LiveDiagram.Proofs.Pointer.Tracked
import LiveDiagram.Proofs.Session.Document

namespace LiveDiagram

variable {α : Type}

namespace Event

/-- An event of the pointer. -/
def OfPointer : Event α → Prop
  | .press _ _ _ | .move _ | .release _ _ => True
  | _ => False

/-- Whether the left button is down after the event, for events that press or
    release it. -/
def leftDown? : Event α → Option Bool
  | .press _ .left _ => some true
  | .release _ .left => some false
  | _ => none

/-- Only the pointer does something, and presses and releases of its left button
    alternate. -/
structure Alternate (es : List (Event α)) : Prop where
  ofPointer : ∀ e ∈ es, e.OfPointer
  left : (es.filterMap leftDown?).IsChain (· ≠ ·)

theorem Alternate.of_prefix {es es' : List (Event α)} (h : Alternate es) (hinit : es' <+: es) :
    Alternate es' where
  ofPointer e he := h.ofPointer e (hinit.mem he)
  left := h.left.prefix (hinit.filterMap leftDown?)

end Event

variable [Scalar α]

namespace Desk

open ChartStage

/-- The last press was one of the right button at that point, in the midst of a
    drag with nodes away from its start, and since then only the right button
    was released. -/
def PressedAway [YamlReader] (d : Desk α) (es : List (Event α)) (p : Point α) : Prop :=
  ∃ past additive rights, es = past ++ .press p .right additive :: rights ∧
    (∀ e ∈ rights, ∃ q, e = .release q .right) ∧ ¬ (d.events past).AtStart

/-- The events end with a left release at the point of such a press, which
    records nothing. A press of the right button moves the point with which the
    release of a drag is compared, so the release takes the drag for one that
    ended where it began. -/
def Forgets [YamlReader] (d : Desk α) (es : List (Event α)) : Prop :=
  ∃ past p, es = past ++ [.release p .left] ∧ d.PressedAway past p

section Histories

variable [YamlReader] {d : Desk α} {es : List (Event α)}

theorem events_append_singleton (d : Desk α) (es : List (Event α)) (e : Event α) :
    d.events (es ++ [e]) = (d.events es).event e := by
  rw [events, List.foldl_append]
  rfl

/-- A session that shows a chart is ready for the pointer after any of its
    events. -/
theorem ready_events (hd : d.session.Ready) (hes : ∀ e ∈ es, e.OfPointer) : (d.events es).session.Ready := by
  induction es using List.reverseRecOn with
  | nil => exact hd
  | append_singleton es e ih =>
    have hready := ih fun other hother => hes other (List.mem_append_left _ hother)
    have he := hes e (by simp)
    rw [events_append_singleton]
    cases e with
    | press p button additive => exact hready.edited ((d.events es).edited_press p button additive)
    | move p => exact hready.edited ((d.events es).edited_move p)
    | release p button => exact hready.edited ((d.events es).edited_release p button)
    | _ => exact he.elim

theorem events_right_releases (d : Desk α) {rights : List (Event α)}
    (hrights : ∀ e ∈ rights, ∃ q, e = .release q .right) : d.events rights = d := by
  induction rights with
  | nil => rfl
  | cons e rights ih =>
    obtain ⟨q, rfl⟩ := hrights e List.mem_cons_self
    exact ih fun other hother => hrights other (List.mem_cons_of_mem _ hother)

/-- The nodes are still away, and the point where they are counts as the start
    of their drag. -/
theorem PressedAway.still_away (hd : d.session.Ready) (hes : ∀ e ∈ es, e.OfPointer) {p : Point α}
    (h : d.PressedAway es p) :
    (d.events es).pointer.last = p ∧ (d.events es).pointer.pressed = p ∧ ¬ (d.events es).AtStart := by
  obtain ⟨past, additive, rights, rfl, hrights, haway⟩ := h
  have hready := ready_events hd fun e he => hes e (List.mem_append_left _ he)
  obtain ⟨hkeeps, hpointer⟩ := Desk.press_right hready p additive
  have hevents : d.events (past ++ .press p .right additive :: rights) =
      ((d.events past).press p .right additive).state := by
    rw [events, List.foldl_append, List.foldl_cons]
    exact events_right_releases _ hrights
  rw [hevents, hpointer]
  refine ⟨rfl, rfl, fun hatStart => haway ?_⟩
  exact (atStart_iff hkeeps (by rw [hpointer])).mp hatStart

/-- What is known of a desk after a history. -/
structure Traced (before : Store α) (first : String → Option (Rect α)) (d : Desk α) (es : List (Event α)) :
    Prop where
  tracked : (d.events es).Tracked before first
  /-- With the left button up nothing is dragged. -/
  idle : (es.filterMap Event.leftDown?).getLast? ≠ some true → (d.events es).pointer.drag = .nothing
  /-- If the pointer is where it was last pressed and nodes are away all the
      same, the right button was pressed. -/
  away : (d.events es).pointer.last = (d.events es).pointer.pressed → ¬ (d.events es).AtStart →
    d.PressedAway es (d.events es).pointer.last

namespace Traced

variable {before : Store α} {first : String → Option (Rect α)}

theorem nil (hd : d.Tracked before first) (hidle : d.pointer.drag = .nothing) : Traced before first d [] where
  tracked := hd
  idle _ := hidle
  away _ haway := (haway (atStart_of_nothing hidle)).elim

/-- What is known after a left press. The button was up, so nothing was dragged,
    and the drag that begins has its nodes at its start. -/
theorem press_left (h : Traced before first d es) (hup : (es.filterMap Event.leftDown?).getLast? ≠ some true)
    (p : Point α) (additive : Bool) : Traced before first d (es ++ [.press p .left additive]) := by
  have hidle := h.idle hup
  obtain ⟨-, hatStart⟩ := Desk.press_left h.tracked.ready hidle p additive
  constructor <;> rw [events_append_singleton]
  · exact h.tracked.press_left hidle p additive
  · intro hdown
    simp [Event.leftDown?] at hdown
  · exact fun _ haway => (haway hatStart).elim

/-- What is known after a right press. If nodes are away at that moment, then
    from here on the pointer is where it was last pressed all the same. -/
theorem press_right (h : Traced before first d es) (p : Point α) (additive : Bool) :
    Traced before first d (es ++ [.press p .right additive]) := by
  obtain ⟨hkeeps, hpointer⟩ := Desk.press_right h.tracked.ready p additive
  constructor <;> rw [events_append_singleton, event]
  · exact h.tracked.press_right p additive
  · intro hup
    rw [hpointer]
    exact h.idle (by simpa [Event.leftDown?] using hup)
  · intro _ haway
    rw [atStart_iff hkeeps (by rw [hpointer])] at haway
    rw [hpointer]
    exact ⟨es, additive, [], rfl, List.forall_mem_nil _, haway⟩

theorem move (hexact : Scalar.Exact α) (h : Traced before first d es) (p : Point α) :
    Traced before first d (es ++ [.move p]) := by
  have hmove := move_eq h.tracked.ready p
  constructor <;> rw [events_append_singleton, event]
  · exact h.tracked.move hexact p
  · intro hup
    rw [hmove]
    exact h.idle (by simpa [Event.leftDown?] using hup)
  · intro hpressed haway
    rw [hmove] at hpressed
    obtain rfl : p = (d.events es).pointer.pressed := hpressed
    exact (haway (atStart_move_pressed hexact h.tracked.ready)).elim

/-- What is known after a right release, which does nothing. -/
theorem release_right (h : Traced before first d es) (p : Point α) :
    Traced before first d (es ++ [.release p .right]) := by
  constructor <;> rw [events_append_singleton, event]
  · exact h.tracked
  · intro hup
    exact h.idle (by simpa [Event.leftDown?] using hup)
  · intro hpressed haway
    obtain ⟨past, additive, rights, hes, hrights, hpast⟩ := h.away hpressed haway
    refine ⟨past, additive, rights ++ [.release p .right], ?_, fun e he => ?_, hpast⟩
    · exact (congrArg (· ++ [Event.release p .right]) hes).trans (List.append_assoc ..)
    · rcases List.mem_append.mp he with he | he
      · exact hrights e he
      · exact ⟨p, List.mem_singleton.mp he⟩

/-- What is known after a left release, if it does not forget. Then either nodes
    are away and the pointer is not where it was last pressed, so that they are
    recorded, or no node is away. -/
theorem release_left (hexact : Scalar.Exact α) (h : Traced before first d es) {p : Point α}
    (hremembers : ¬ d.Forgets (es ++ [.release p .left])) :
    Traced before first d (es ++ [.release p .left]) := by
  have hdrag := drag_eq_nothing (isDragging_release_left h.tracked.ready p)
  constructor <;> rw [events_append_singleton, event]
  · refine h.tracked.release_left hexact fun hlast hpressed => ?_
    by_contra haway
    have hpressedAway := h.away (hlast.symm.trans hpressed) haway
    exact hremembers ⟨es, p, rfl, hlast ▸ hpressedAway⟩
  · exact fun _ => hdrag
  · exact fun _ haway => (haway (atStart_of_nothing hdrag)).elim

end Traced

/-- As long as nothing was forgotten, the nodes of the chart are known. The
    induction is on the events, with the last one taken off. -/
theorem traced_events (hexact : Scalar.Exact α) {before : Store α} {first : String → Option (Rect α)}
    (hd : d.Tracked before first) (hidle : d.pointer.drag = .nothing) (hes : Event.Alternate es)
    (hremembers : ∀ es', es' <+: es → ¬ d.Forgets es') : Traced before first d es := by
  induction es using List.reverseRecOn with
  | nil => exact .nil hd hidle
  | append_singleton es e ih =>
    have hinit : es <+: es ++ [e] := List.prefix_append es [e]
    have h := ih (hes.of_prefix hinit) fun es' hes' => hremembers es' (hes'.trans hinit)
    have he := hes.ofPointer e (by simp)
    cases e with
    | press p button additive =>
      cases button with
      | left =>
        have hchain := hes.left
        rw [List.filterMap_append, List.isChain_append] at hchain
        refine h.press_left (fun hdown => ?_) p additive
        exact hchain.2.2 true hdown true rfl rfl
      | right => exact h.press_right p additive
    | move p => exact h.move hexact p
    | release p button =>
      cases button with
      | left => exact h.release_left hexact (hremembers _ (List.prefix_refl _))
      | right => exact h.release_right p
    | _ => exact he.elim

end Histories

end Desk

/-- Each node of the chart stands where the store records it, or, without a
    record, at its first place. -/
def Session.Kept (first : String → Option (Rect α)) (s : Session α) : Prop :=
  ∀ id r, s.rect? id = some r → (s.store.node? id).or (first id) = some r

namespace Desk

open ChartStage

section Rest

variable {before : Store α} {first : String → Option (Rect α)} {d : Desk α} {es : List (Event α)}

/-- When nothing is dragged, the nodes are where they are known to be. -/
theorem Tracked.kept (hd : d.Tracked before first) (hrest : d.isDragging = false) : d.session.Kept first := by
  intro id r hr
  rw [← Session.chartStage_rect?] at hr
  have hkept := hd.tracks.kept id r hr
  rw [drag_eq_nothing hrest, d.session.chartStage_sameRecords.1] at hkept
  exact hkept

/-- A left release that forgets leaves nodes away from where they belong:
    nothing is dragged any more, and nothing was recorded. -/
theorem Traced.not_kept [YamlReader] (hexact : Scalar.Exact α) (h : Traced before first d es) (hd : d.session.Ready)
    (hes : ∀ e ∈ es, e.OfPointer) {p : Point α} (hpressedAway : d.PressedAway es p) :
    (d.events (es ++ [.release p .left])).isDragging = false ∧
      ¬ (d.events (es ++ [.release p .left])).session.Kept first := by
  obtain ⟨hlast, hpressed, haway⟩ := hpressedAway.still_away hd hes
  have hsession := release_left_session hexact h.tracked.ready hlast hpressed
  rw [events_append_singleton, event, hsession]
  refine ⟨isDragging_release_left h.tracked.ready p, fun hkept => haway fun id r hr => ?_⟩
  have hbelongs := h.tracked.tracks.kept id r (by rwa [Session.chartStage_rect?])
  rw [(d.events es).session.chartStage_sameRecords.1, hkept id r hr] at hbelongs
  exact (Option.some.inj hbelongs).symm

/-- The nodes are where they belong whenever nothing is dragged, just as long as
    no release forgets them. -/
theorem kept_iff [YamlReader] (hexact : Scalar.Exact α) (hd : d.Tracked before first)
    (hidle : d.pointer.drag = .nothing)
    (hes : Event.Alternate es) :
    (∀ es', es' <+: es → (d.events es').isDragging = false → (d.events es').session.Kept first) ↔
      ∀ es', es' <+: es → ¬ d.Forgets es' := by
  constructor
  · -- before the first release that forgets, all is known
    intro hkept
    induction es using List.reverseRecOn with
    | nil =>
      rintro es' hes' ⟨past, p, heq, -⟩
      rw [List.prefix_nil.mp hes'] at heq
      simp at heq
    | append_singleton es e ih =>
      have hinit : es <+: es ++ [e] := List.prefix_append es [e]
      have hes' := hes.of_prefix hinit
      have hremembers := ih hes' fun es' h => hkept es' (h.trans hinit)
      intro es' h
      rcases List.prefix_concat_iff.mp h with rfl | h
      · rintro ⟨past, p, heq, haway⟩
        obtain ⟨rfl, he⟩ := List.append_inj' heq rfl
        obtain rfl := List.singleton_inj.mp he
        have htraced := traced_events hexact hd hidle hes' hremembers
        obtain ⟨hrest, hnot⟩ := htraced.not_kept hexact hd.ready hes'.ofPointer haway
        exact hnot (hkept _ (List.prefix_refl _) hrest)
      · exact hremembers es' h
  · intro hremembers es' h hrest
    have htraced := traced_events hexact hd hidle (hes.of_prefix h) fun es'' h' => hremembers es'' (h'.trans h)
    exact htraced.tracked.kept hrest

end Rest

/-- A desk on which a text is shown, from the start, over a store. -/
def shown [YamlReader] (measure : Measure α) (store : Store α) (text : String) : Desk α :=
  start ((Session.start measure store).renderText text).1

section Shown

variable (measure : Measure α) {store : Store α} {text : String} {f : Flowchart}

theorem shown_session [YamlReader] (htext : Diagram.ofText text = .flowchart f) :
    (shown measure store text).session = (Session.start measure store).renderFlowchart f := by
  rw [shown, start, Session.renderText, htext]
  rfl

/-- At first a node stands where the store records it, or else at the place of
    its index. -/
theorem rect?_shown [YamlReader] (htext : Diagram.ofText text = .flowchart f) (id : String) :
    (shown measure store text).session.rect? id =
      if id ∈ f.nodeIds then
        some (match store.node? id with
          | some r => recordedRect r
          | none => Layout.nodeRect (f.firstIndex id) f.direction)
      else none := by
  rw [shown_session measure htext]
  have hrect := render_rect? (Session.start measure store).chartStage f id
  have hnone : (Session.start measure store).chartStage.picture.rect? id = none := by
    simp [Session.chartStage, Session.start, Stage.withPicture, Chart.rect?, Chart.empty]
  rw [hnone, Option.getD_none] at hrect
  exact hrect

theorem node?_shown [YamlReader] (htext : Diagram.ofText text = .flowchart f) (id : String) :
    (shown measure store text).session.store.node? id = store.node? id := by
  rw [shown_session measure htext]
  exact ((Session.sound_start measure store).renderFlowchart_completes f).1.node? id

theorem nodeRect_sized (hexact : Scalar.Exact α) (index : Nat) (direction : Direction) :
    (Layout.nodeRect index direction : Rect α).Sized := by
  have hwidth : (0 : α) < Layout.nodeWidth := hexact.ofNat_pos 159
  have hheight : (0 : α) < Layout.nodeHeight := hexact.ofNat_pos 59
  unfold Layout.nodeRect
  split <;> exact ⟨hwidth, hheight⟩

/-- The nodes of a text that is shown are known. Records without a size would
    not be read back, and a node would then not stand where it is recorded. -/
theorem tracked_shown [YamlReader] (hexact : Scalar.Exact α) (measure : Measure α)
    (hstore : ∀ id r, store.node? id = some r → r.Sized) (htext : Diagram.ofText text = .flowchart f) :
    (shown measure store text).Tracked store (shown measure store text).session.rect? := by
  have hnode : ∀ id, (shown measure store text).session.store.node? id = store.node? id :=
    node?_shown measure htext
  have hrecorded : ∀ id r, (shown measure store text).session.rect? id = some r →
      r.Sized ∧ (store.node? id).or (some r) = some r := by
    intro id r hr
    rw [rect?_shown measure htext] at hr
    split at hr
    · obtain rfl := Option.some.inj hr
      cases hid : store.node? id with
      | none => exact ⟨nodeRect_sized hexact _ _, rfl⟩
      | some q =>
        obtain ⟨hwidth, hheight⟩ := hstore id q hid
        dsimp only
        rw [recordedRect_of_pos hwidth hheight]
        exact ⟨⟨hwidth, hheight⟩, rfl⟩
    · simp at hr
  constructor
  · refine ⟨?_, ?_, ?_⟩ <;> rw [shown_session measure htext]
    · exact ⟨_, rfl⟩
    · exact (Session.sound_start measure store).renderFlowchart f
    · have hsteps := (Session.start measure store).chartStage.render_steps (P := fun _ => True) (d := f)
        fun _ _ => trivial
      exact hsteps.sameSetup.accepts rfl
  · refine ⟨fun id => ?_, fun id r hr => ?_, fun id r hr => ?_, fun id hid => ?_⟩
    · rw [Session.chartStage_rect?]
    · rw [Session.chartStage_rect?] at hr
      exact (hrecorded id r hr).1
    · rw [Session.chartStage_rect?] at hr
      rw [(shown measure store text).session.chartStage_sameRecords.1, hnode, hr]
      exact (hrecorded id r hr).2
    · rw [(shown measure store text).session.chartStage_sameRecords.1, hnode] at hid
      exact hid

/-- Shown again over the store at hand, the nodes are where they were left. -/
theorem rect?_shown_again [YamlReader] {measure' : Measure α} {d : Desk α}
    (hd : d.Tracked store (shown measure store text).session.rect?) (htext : Diagram.ofText text = .flowchart f)
    (hrest : d.isDragging = false) (id : String) :
    (shown measure' d.session.store text).session.rect? id = d.session.rect? id := by
  have hpresent := hd.tracks.present id
  have hunrecorded := hd.tracks.unrecorded id
  rw [d.session.chartStage_sameRecords.1] at hunrecorded
  rw [Session.chartStage_rect?, rect?_shown _ htext] at hpresent
  rw [rect?_shown _ htext]
  cases hr : d.session.rect? id with
  | none =>
    rw [hr] at hpresent
    split
    · rw [if_pos ‹_›] at hpresent
      simp at hpresent
    · rfl
  | some r =>
    have hkept := hd.kept hrest id r hr
    have hsized := hd.tracks.sized id r (by rwa [Session.chartStage_rect?])
    rw [hr] at hpresent
    split at hpresent
    · rename_i hid
      rw [if_pos hid]
      cases hnode : d.session.store.node? id with
      | some q =>
        rw [hnode, Option.some_or] at hkept
        obtain rfl := Option.some.inj hkept
        exact congrArg some (recordedRect_of_pos hsized.1 hsized.2)
      | none =>
        rw [hnode, Option.none_or, rect?_shown _ htext, if_pos hid, hunrecorded hnode] at hkept
        exact hkept
    · simp at hpresent

end Shown

/-- Whatever the pointer does from a text that is shown, its left button going
    up and down in turn: the nodes are where they are recorded, or else where
    they were shown first, whenever nothing is dragged, just as long as no left
    release comes at the point of a right press in the midst of the drag. Until
    then, the text that is shown again over the store has all nodes where they
    were left. -/
theorem kept_events [YamlReader] (hexact : Scalar.Exact α) (measure : Measure α) {store : Store α}
    (hstore : ∀ id r, store.node? id = some r → r.Sized) {text : String} {f : Flowchart}
    (htext : Diagram.ofText text = .flowchart f) {d : Desk α} (hd : d = shown measure store text)
    {es : List (Event α)} (hes : Event.Alternate es) :
    ((∀ es', es' <+: es → (d.events es').isDragging = false →
        (d.events es').session.Kept d.session.rect?) ↔ ∀ es', es' <+: es → ¬ d.Forgets es') ∧
    ((∀ es', es' <+: es → ¬ d.Forgets es') → (d.events es).isDragging = false →
      ∀ id, (shown measure (d.events es).session.store text).session.rect? id =
        (d.events es).session.rect? id) := by
  subst hd
  have htracked := tracked_shown hexact measure hstore htext
  refine ⟨kept_iff hexact htracked rfl hes, fun hremembers hrest => ?_⟩
  have htraced := traced_events hexact htracked rfl hes hremembers
  exact rect?_shown_again measure htraced.tracked htext hrest

section OneNode

/-- A text with one node. -/
def oneNodeText : String := "flowchart TD\na[A]"

/-- The flowchart of that text. -/
def oneNode : Flowchart := { nodes := [⟨"a", "A", none⟩] }

theorem ofText_oneNodeText : Diagram.ofText oneNodeText = .flowchart oneNode :=
  rfl

/-- The node at its default place. -/
noncomputable abbrev oneNodeShown : Desk ℝ :=
  shown (fun _ => ⟨0, 0⟩) Store.inMemory oneNodeText

/-- A point on the node. -/
def hold : Point α := ⟨80, 30⟩

/-- A point beside it. -/
def aside : Point α := ⟨180, 80⟩

/-- A drag of the node. -/
def dragEvents : List (Event α) :=
  [.press hold .left false, .move aside]

/-- The same drag up to its end. -/
def dropEvents : List (Event α) :=
  dragEvents ++ [.release aside .left]

/-- The same drag, at the end of which the right button is pressed. -/
def forgottenEvents : List (Event α) :=
  dragEvents ++ [.press aside .right false, .release aside .right, .release aside .left]

theorem oneNodeShown_nodes :
    ∃ c n, oneNodeShown.session.picture = .chart c ∧ c.selectedEdge = none ∧ c.nodes.toList = [("a", n)] ∧
      n.selected = false ∧ n.rect = Layout.nodeRect 0 .topDown := by
  have hnodes : (ChartStage.render (Session.start (fun _ => ⟨0, 0⟩) (Store.inMemory : Store ℝ)).chartStage
      oneNode).picture.nodes.toList.map (fun n => (n.1, n.2.selected, n.2.rect)) =
        [("a", false, Layout.nodeRect 0 .topDown)] :=
    rfl
  obtain ⟨⟨id, n⟩, htoList, hitem⟩ := List.map_eq_singleton_iff.mp hnodes
  obtain ⟨rfl, hitem⟩ := Prod.mk.inj hitem
  obtain ⟨hselected, hrect⟩ := Prod.mk.inj hitem
  refine ⟨_, n, ?_, rfl, htoList, hselected, hrect⟩
  rw [shown_session (fun _ => ⟨0, 0⟩) ofText_oneNodeText]
  rfl

theorem hit_oneNodeShown : oneNodeShown.session.hit hold = .node "a" := by
  have hcontains : (Layout.nodeRect 0 .topDown : Rect ℝ).contains hold = true := by
    simp [Layout.nodeRect, Rect.contains, Rect.right, Rect.bottom, Direction.isHorizontal, Layout.nodesPerRow,
      Layout.nodeWidth, Layout.nodeHeight, hold]
    norm_num
  obtain ⟨c, n, hc, hedge, hnodes, hselected, hrect⟩ := oneNodeShown_nodes
  rw [Session.hit, hc]
  refine Chart.hit_of_hitNode hedge (fun m hm => ?_) ?_
  · rw [hnodes] at hm
    obtain rfl := List.mem_singleton.mp hm
    exact hselected
  · rw [Chart.hitNode, hnodes]
    simp [hrect, hcontains]

/-- The drag takes the node away from where it began. -/
theorem away_dragEvents : ¬ (oneNodeShown.events dragEvents).AtStart := by
  let r : Rect ℝ := Layout.nodeRect 0 .topDown
  have hdrag : (oneNodeShown.events dragEvents).pointer.drag = .nodes [("a", ⟨r.x, r.y⟩)] := by
    show ((oneNodeShown.press hold .left false).state.move aside).state.pointer.drag = _
    unfold press
    rw [hit_oneNodeShown, oneNodeShown, shown, start, Session.renderText, ofText_oneNodeText]
    rfl
  have hrect : (oneNodeShown.events dragEvents).session.rect? "a" =
      some (r.at ⟨r.x + (aside.x - hold.x), r.y + (aside.y - hold.y)⟩) := by
    show ((oneNodeShown.press hold .left false).state.move aside).state.session.rect? "a" = _
    unfold press
    rw [hit_oneNodeShown, oneNodeShown, shown, start, Session.renderText, ofText_oneNodeText]
    rfl
  intro hatStart
  have hundo := hatStart "a" _ hrect
  rw [hdrag] at hundo
  have hx : r.x = r.x + (aside.x - hold.x) := congrArg Rect.x hundo
  simp [aside, hold] at hx
  norm_num at hx

theorem not_forgets_of_forall_ne [YamlReader] {d : Desk α} {es : List (Event α)}
    (hes : ∀ p additive, Event.press p .right additive ∉ es) : ¬ d.Forgets es := by
  rintro ⟨_, p, rfl, past, additive, rights, rfl, -⟩
  exact hes p additive (by simp)

/-- A drag that ends as it should is kept. One during which the right button is
    pressed last is forgotten. -/
theorem kept_events_oneNodeShown :
    (∀ id, (shown (fun _ => ⟨0, 0⟩) (oneNodeShown.events dropEvents).session.store
        oneNodeText).session.rect? id = (oneNodeShown.events dropEvents).session.rect? id) ∧
      ∃ es, es <+: forgottenEvents ∧ (oneNodeShown.events es).isDragging = false ∧
        ¬ (oneNodeShown.events es).session.Kept oneNodeShown.session.rect? := by
  have hstore : ∀ id r, (Store.inMemory : Store ℝ).node? id = some r → r.Sized := by
    intro id r hr
    simp [Store.node?_inMemory] at hr
  have hleft : [true, false].IsChain (· ≠ ·) := by decide
  constructor
  · have hes : Event.Alternate (dropEvents : List (Event ℝ)) :=
      ⟨by simp [dropEvents, dragEvents, Event.OfPointer], hleft⟩
    have hremembers : ∀ es', es' <+: dropEvents → ¬ oneNodeShown.Forgets es' := by
      intro es' h
      refine not_forgets_of_forall_ne fun p additive hmem => ?_
      simpa [dropEvents, dragEvents] using h.mem hmem
    have hready := (tracked_shown Scalar.exact_real (fun _ => ⟨0, 0⟩) hstore ofText_oneNodeText).ready
    have hrest : (oneNodeShown.events dropEvents).isDragging = false := by
      rw [dropEvents, events_append_singleton]
      exact isDragging_release_left (ready_events hready (by simp [dragEvents, Event.OfPointer])) _
    exact (kept_events Scalar.exact_real _ hstore ofText_oneNodeText rfl hes).2 hremembers hrest
  · by_contra hnone
    push Not at hnone
    have hes : Event.Alternate (forgottenEvents : List (Event ℝ)) :=
      ⟨by simp [forgottenEvents, dragEvents, Event.OfPointer], hleft⟩
    have hiff := (kept_events Scalar.exact_real (fun _ => ⟨0, 0⟩) hstore ofText_oneNodeText rfl hes).1
    refine hiff.mp hnone _ (List.prefix_refl _) ?_
    exact ⟨_, aside, rfl, dragEvents, false, [.release aside .right], rfl, by simp, away_dragEvents⟩

end OneNode

end Desk

end LiveDiagram
