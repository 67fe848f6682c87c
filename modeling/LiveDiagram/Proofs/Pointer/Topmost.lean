import LiveDiagram.Proofs.Number.Exact
import LiveDiagram.Proofs.Pointer.Hits
import LiveDiagram.Proofs.Pointer.Selection
import LiveDiagram.Proofs.Sequence.WellFormed
import LiveDiagram.Proofs.Surface.Order
import LiveDiagram.Proofs.Timeline.Shown

namespace LiveDiagram

theorem Part.id_node_lt {id other : String} (h : id < other) : (Part.node id).id < (Part.node other).id := by
  simp only [Part.id, String.lt_iff_toList_lt, String.toList_append] at h ⊢
  exact List.append_left_lt h

theorem Part.id_participant_lt {id other : String} (h : id < other) :
    (Part.participant id).id < (Part.participant other).id := by
  simp only [Part.id, String.lt_iff_toList_lt, String.toList_append] at h ⊢
  exact List.append_left_lt h

variable {α : Type} [Scalar α] {p : Point α} {id : String}

section Chart

/-- The id is that of the body of a node with the point in its rectangle. -/
def Chart.BodyAt (c : Chart α) (p : Point α) (name : String) : Prop :=
  ∃ (id : String) (n : NodeItem α), c.nodes[id]? = some n ∧ n.rect.contains p ∧ name = (Part.node id).id

/-- A node that is hit comes after all others with the point in their
    rectangles, since the nodes are searched from the last one on. -/
theorem Chart.lt_of_hitNode {c : Chart α} (hhit : c.hitNode p = some (.node id)) :
    (∃ n, c.nodes[id]? = some n ∧ n.rect.contains p) ∧
      ∀ (other : String) (m : NodeItem α), c.nodes[other]? = some m → m.rect.contains p → other ≠ id →
        other < id := by
  obtain ⟨⟨found, n⟩, hfound, heq⟩ := Option.map_eq_some_iff.mp hhit
  obtain rfl := Hit.node.inj heq
  have hn := Std.ExtTreeMap.mem_toList_iff_getElem?_eq_some.mp
    (List.mem_reverse.mp (List.mem_of_find?_eq_some hfound))
  have hhere := List.find?_some hfound
  refine ⟨⟨n, hn, hhere⟩, fun other m hm hcontains hne => ?_⟩
  have hmem : (other, m) ∈ c.nodes.toList.reverse :=
    List.mem_reverse.mpr (Std.ExtTreeMap.mem_toList_iff_getElem?_eq_some.mpr hm)
  have hreverse : c.nodes.toList.reverse.Pairwise fun a b => b.1 < a.1 :=
    List.pairwise_reverse.mpr (pairwise_toList c.nodes)
  have hless := rel_of_find? hreverse hfound hmem hcontains fun heq => hne (congrArg Prod.fst heq)
  exact hless

namespace ChartStage

variable {s : ChartStage α}

/-- The body of each node of the chart is on the surface. -/
theorem InSync.getElem?_body (hs : s.InSync) {n : NodeItem α} (hn : s.picture.nodes[id]? = some n) :
    s.surface.primitives[(Part.node id).id]? = some n.bodyPrimitive := by
  have hscene : s.picture.Scene s.measure (n.marks id) :=
    NodeItem.marks_bare id n ▸ .node (Chart.bare?_of_getElem? hn)
  exact hs.depicts.getElem?_of_mem hscene (m := .put (Part.node id).id n.bodyPrimitive) List.mem_cons_self

/-- The node that is hit is drawn over all others with the point in their
    rectangles. -/
theorem InSync.drawnLast_of_hitNode (hs : s.InSync) (hhit : s.picture.hitNode p = some (.node id)) :
    s.surface.DrawnLast (s.picture.BodyAt p) (Part.node id).id := by
  obtain ⟨⟨n, hn, hcontains⟩, hlast⟩ := Chart.lt_of_hitNode hhit
  have hbody := hs.getElem?_body hn
  refine ⟨⟨id, n, hn, hcontains, rfl⟩, ?_, ?_⟩
  · exact Std.ExtTreeMap.mem_iff_isSome_getElem?.mpr (Option.isSome_of_eq_some hbody)
  · rintro _ ⟨other, m, hm, hother, rfl⟩ hne
    have hless : other < id := hlast other m hm hother fun heq => hne (congrArg (fun id => (Part.node id).id) heq)
    exact Surface.drawnBefore_of_lt (hs.getElem?_body hm) hbody rfl (Part.id_node_lt hless)

end ChartStage

end Chart

section Timeline

/-- The id is that of the header of a participant with the point in its
    header. -/
def Timeline.HeaderAt (t : Timeline α) (p : Point α) (name : String) : Prop :=
  ∃ (id : String) (q : ParticipantItem α), t.participants[id]? = some q ∧ q.header.contains p ∧
    name = (Part.participant id).id

/-- A participant that is hit comes before all others with the point in their
    headers, since the participants are searched from the first one on. -/
theorem Timeline.lt_of_hit {t : Timeline α} (hhit : t.hit p = .participant id) :
    (∃ q, t.participants[id]? = some q ∧ q.header.contains p) ∧
      ∀ (other : String) (r : ParticipantItem α), t.participants[other]? = some r → r.header.contains p →
        other ≠ id → id < other := by
  unfold hit at hhit
  cases hfound : t.participants.toList.find? fun q => q.2.header.contains p with
  | none =>
    rw [hfound] at hhit
    cases hhit
  | some x =>
    rw [hfound] at hhit
    obtain rfl := Hit.participant.inj hhit
    have hx := Std.ExtTreeMap.mem_toList_iff_getElem?_eq_some.mp (List.mem_of_find?_eq_some hfound)
    have hhere := List.find?_some hfound
    refine ⟨⟨x.2, hx, hhere⟩, fun other r hr hcontains hne => ?_⟩
    have hmem : (other, r) ∈ t.participants.toList := Std.ExtTreeMap.mem_toList_iff_getElem?_eq_some.mpr hr
    have hless := rel_of_find? (pairwise_toList t.participants) hfound hmem hcontains
      fun heq => hne (congrArg Prod.fst heq)
    exact hless

namespace TimelineStage

variable {s : TimelineStage α}

/-- The header of each participant of the timeline is on the surface, and all
    headers are on one level. -/
theorem Shown.getElem?_header (hs : s.Shown) {q : ParticipantItem α} (hq : s.picture.participants[id]? = some q) :
    ∃ header, s.surface.primitives[(Part.participant id).id]? = some header ∧ header.shape = .rect q.header ∧
      header.z = 5 := by
  have hbare : s.picture.bare? id = some q.bare := by rw [Timeline.bare?, hq, Option.map_some]
  exact ⟨_, hs.participants.shown id q.bare hbare _ List.mem_cons_self, rfl, rfl⟩

/-- The header of the participant that is hit is drawn below those of all others
    with the point in them. -/
theorem Shown.drawnFirst_of_hit (hs : s.Shown) (hhit : s.picture.hit p = .participant id) :
    s.surface.DrawnFirst (s.picture.HeaderAt p) (Part.participant id).id := by
  obtain ⟨⟨q, hq, hcontains⟩, hfirst⟩ := Timeline.lt_of_hit hhit
  obtain ⟨header, hheader, -, hz⟩ := hs.getElem?_header hq
  refine ⟨⟨id, q, hq, hcontains, rfl⟩, ?_, ?_⟩
  · exact Std.ExtTreeMap.mem_iff_isSome_getElem?.mpr (Option.isSome_of_eq_some hheader)
  · rintro _ ⟨other, r, hr, hother, rfl⟩ hne
    obtain ⟨header', hheader', -, hz'⟩ := hs.getElem?_header hr
    have hless : id < other :=
      hfirst other r hr hother fun heq => hne (congrArg (fun id => (Part.participant id).id) heq)
    exact Surface.drawnBefore_of_lt hheader hheader' (hz.trans hz'.symm) (Part.id_participant_lt hless)

end TimelineStage

end Timeline

/-- No node and no participant of the diagram has a colon in its id. -/
structure Diagram.Separable (diagram : Diagram) : Prop where
  nodes : diagram.Plain
  participants : ∀ d, diagram = .sequence d → ∀ id ∈ d.participantIds, ColonFree id

theorem Diagram.OfText.separable {diagram : Diagram} (h : diagram.OfText) : diagram.Separable where
  nodes := h.plain
  participants d hd := by
    obtain ⟨text, config, htext⟩ := h
    rw [(ofStatements_eq_sequence_iff.mp (htext.symm.trans hd)).2]
    exact fun id hid => (Sequence.wellFormed_ofLines _ config).plain id hid ':' (by simp)

namespace Session

/-- The session is up to date, and its timeline, if there is one, is shown. -/
structure Displayed (s : Session α) : Prop where
  current : s.Current
  timeline : ∀ t, s.picture = .timeline t → TimelineStage.Shown (s.withPicture t)

namespace Displayed

variable {s : Session α}

theorem start (measure : Measure α) (store : Store α) : (Session.start measure store).Displayed where
  current := .start measure store
  timeline t ht := by cases ht

/-- A session leads over to a timeline that is shown, whatever was shown
    before. -/
theorem timelineStage (hs : s.Displayed) (ids : List String) : (s.timelineStage ids).Shown := by
  rcases s.timelineStage_cases ids with ⟨t, ht, -, hstage⟩ | hstage
  · rw [hstage]
    exact hs.timeline t ht
  · rw [hstage]
    exact TimelineStage.shown_empty hs.current.accepts rfl

/-- A call that shows diagrams without colons in their ids leaves the session
    displayed. -/
theorem call (hs : s.Displayed) {c : Call α} (hc : c.Shows Diagram.Separable) : (s.call c).Displayed where
  current := hs.current.call (Call.plain_of_shows (hc.imp fun _ hd => hd.nodes))
  timeline t ht := by
    refine call_timeline (I := TimelineStage.Shown) (fun u v hpicture hsurface hu => hu.congr hpicture hsurface)
      (fun u e hu => hu.edit e) ?_ ?_ hs.timeline ht
    · rintro d rfl
      have hcovered : TimelineStage.CoveredBy (s.timelineStage (d.participants.map Participant.id)) d :=
        fun id hid => mem_of_mem_timelineStage (fun t ht => (hs.timeline t ht).ordered) hid
      exact (hs.timelineStage _).render hcovered (hc.participants d rfl)
    · rintro ids u rfl
      exact hc.elim

end Displayed

end Session

namespace Desk

/-- Whatever happens from the start on a surface that refuses nothing: of the
    nodes in which a point is, it hits the one that is drawn last, so the one
    that is seen there. With participants it is the other way round. Of those in
    whose headers the point is, it hits the one whose header is drawn first, and
    that is the last one only if it is the only one. -/
theorem stacking_events [YamlReader] (measure : Measure α) (store : Store α) {es : List (Event α)}
    (hes : ∀ e ∈ es, e.Shows Diagram.Separable) {s : Session α}
    (hs : s = ((start (Session.start measure store)).events es).session) (p : Point α) (id : String) :
    (s.hit p = .node id → ∃ c, s.picture = .chart c ∧ s.surface.DrawnLast (c.BodyAt p) (Part.node id).id) ∧
      (s.hit p = .participant id → ∃ t, s.picture = .timeline t ∧
        s.surface.DrawnFirst (t.HeaderAt p) (Part.participant id).id ∧
        (s.surface.DrawnLast (t.HeaderAt p) (Part.participant id).id ↔
          ∀ other, t.HeaderAt p other → other = (Part.participant id).id)) := by
  have hdisplayed : s.Displayed := hs ▸ events_induction (fun text => (Diagram.ofText_ofText text).separable)
    (fun _ hc _ hu => hu.call hc) hes (.start measure store)
  constructor
  · intro hhit
    obtain ⟨c, hc, -⟩ := Session.chart_of_hit hhit ⟨by simp, by simp⟩
    rw [Session.hit, hc] at hhit
    exact ⟨c, hc, (hdisplayed.current.chart c hc).inSync.drawnLast_of_hitNode (Chart.hitNode_of_hit hhit)⟩
  · intro hhit
    obtain ⟨t, ht, -⟩ := Session.timeline_of_hit hhit
    rw [Session.hit, ht] at hhit
    have hfirst := (hdisplayed.timeline t ht).drawnFirst_of_hit hhit
    exact ⟨t, ht, hfirst, hfirst.drawnLast_iff⟩

section Overlap

/-- Two participants. -/
def twoParticipants : Sequence where
  participants := [⟨"a", "A"⟩, ⟨"b", "B"⟩]

/-- The second participant is moved over the first. -/
def overlapEvents : List (Event ℝ) :=
  [.render (.sequence twoParticipants), .editTimeline (.moveParticipant "b" 0)]

/-- A point in the headers of both. -/
def inBoth : Point ℝ := ⟨1, 1⟩

noncomputable abbrev overlapped : Session ℝ :=
  ((start (Session.start (fun _ => ⟨0, 0⟩) Store.inMemory)).events overlapEvents).session

/-- Both participants are at the left end, as wide as any. -/
theorem overlapped_participants :
    ∃ t qa qb, overlapped.picture = .timeline t ∧ t.participants.toList = [("a", qa), ("b", qb)] ∧
      qa.header.contains inBoth ∧ qb.header.contains inBoth := by
  have hshown : ∃ t, overlapped.picture = .timeline t ∧
    t.participants.toList.map (fun q => (q.1, q.2.x, q.2.width)) =
      [("a", Layout.participantLeft 0 Layout.participantSpacing, Layout.participantWidth),
        ("b", 0, Layout.participantWidth)] :=
    ⟨_, rfl, rfl⟩
  obtain ⟨t, ht, hparticipants⟩ := hshown
  obtain ⟨⟨ida, qa⟩, rest, htoList, ha, hrest⟩ := List.map_eq_cons_iff.mp hparticipants
  obtain ⟨⟨idb, qb⟩, rfl, hb⟩ := List.map_eq_singleton_iff.mp hrest
  simp only [Prod.mk.injEq] at ha hb
  obtain ⟨rfl, hax, hawidth⟩ := ha
  obtain ⟨rfl, hbx, hbwidth⟩ := hb
  have hcontains (q : ParticipantItem ℝ) (hx : q.x = 0) (hwidth : q.width = Layout.participantWidth) :
      q.header.contains inBoth := by
    simp only [ParticipantItem.header, Rect.contains, Rect.right, Rect.bottom, hx, hwidth, inBoth, Scalar.zero_real,
      Scalar.numeral_real, Layout.participantWidth, Layout.participantHeight]
    norm_num
  have hleft : (Layout.participantLeft 0 Layout.participantSpacing : ℝ) = 0 := by simp [Layout.participantLeft]
  exact ⟨t, qa, qb, ht, htoList, hcontains qa (hax.trans hleft) hawidth, hcontains qb hbx hbwidth⟩

/-- A point in both headers hits the first participant, although the second one
    is drawn over it. -/
theorem stacking_events_overlapped :
    overlapped.hit inBoth = .participant "a" ∧ ∃ t, overlapped.picture = .timeline t ∧
      overlapped.surface.DrawnFirst (t.HeaderAt inBoth) (Part.participant "a").id ∧
      ¬ overlapped.surface.DrawnLast (t.HeaderAt inBoth) (Part.participant "a").id := by
  obtain ⟨t, qa, qb, ht, htoList, ha, hb⟩ := overlapped_participants
  have hhit : overlapped.hit inBoth = .participant "a" := by
    rw [Session.hit, ht]
    simp only [Timeline.hit, htoList, List.find?_cons, ha, Option.map_some, Option.getD_some]
  have hshows : ∀ e ∈ overlapEvents, e.Shows Diagram.Separable := by
    intro e he
    simp only [overlapEvents, List.mem_cons, List.not_mem_nil, or_false] at he
    rcases he with rfl | rfl
    · refine ⟨fun d hd => ?_, fun d hd => ?_⟩
      · cases hd
      · cases hd
        decide
    · trivial
  obtain ⟨t', ht', hfirst, hlast⟩ :=
    (stacking_events (fun _ => ⟨0, 0⟩) Store.inMemory hshows rfl inBoth "a").2 hhit
  obtain rfl := Picture.timeline.inj (ht.symm.trans ht')
  refine ⟨hhit, t, ht, hfirst, fun h => ?_⟩
  have hother : t.HeaderAt inBoth (Part.participant "b").id := by
    refine ⟨"b", qb, Std.ExtTreeMap.mem_toList_iff_getElem?_eq_some.mp ?_, hb, rfl⟩
    rw [htoList]
    simp
  exact absurd (hlast.mp h _ hother) (by decide)

end Overlap

end Desk

end LiveDiagram
