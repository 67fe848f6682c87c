import LiveDiagram.Proofs.Session.Headers

namespace LiveDiagram

namespace Sequence

/-- The first of the diagrams that has that participant. -/
def introducing? (ds : List Sequence) (id : String) : Option Sequence :=
  ds.find? fun d => d.participantIds.contains id

/-- The index of the participant in the first of the diagrams that has it. -/
def firstIndex (ds : List Sequence) (id : String) : Nat :=
  ((introducing? ds id).map fun d => d.participantIds.idxOf id).getD 0

/-- When one more diagram is shown, it introduces the participants that no
    diagram had before. -/
theorem introducing?_append_singleton (ds : List Sequence) (d : Sequence) (id : String) :
    introducing? (ds ++ [d]) id =
      (introducing? ds id).or (if id ∈ d.participantIds then some d else none) := by
  unfold introducing?
  rw [List.find?_append, List.find?_singleton]
  by_cases h : id ∈ d.participantIds
  · simp [h]
  · simp [h]

/-- Just the participants of the diagrams are introduced by one of them. -/
theorem introducing?_isSome {ds : List Sequence} {id : String} :
    (introducing? ds id).isSome ↔ ∃ d ∈ ds, id ∈ d.participantIds := by
  simp [introducing?, List.find?_isSome]

variable {α : Type} [Scalar α]

/-- The left side at which the diagram puts a participant of which nothing is
    recorded. -/
def defaultLeft (d : Sequence) (id : String) : α :=
  Layout.participantLeft (d.participantIds.idxOf id) d.config.participantSpacing

/-- The header that such a participant gets. -/
def defaultHeader (d : Sequence) (id : String) : Rect α :=
  ⟨d.defaultLeft id, 0, Layout.participantWidth, Layout.participantHeight⟩

end Sequence

variable {α : Type} [Scalar α]

/-- The participants with those ids stand in that order from left to right, no
    two at the same place. -/
def Timeline.InOrder (t : Timeline α) (ids : List String) : Prop :=
  ids.Pairwise fun a b => ∃ p q, t.participants[a]? = some p ∧ t.participants[b]? = some q ∧ p.x < q.x

/-- The store records of participants where the first of the diagrams put them
    that have them, and nothing else of nodes or participants. -/
def Store.Introduces (store : Store α) (ds : List Sequence) : Prop :=
  ∀ id, store.node? id = (Sequence.introducing? ds id).map fun d => d.defaultHeader id

namespace Store.Introduces

variable {store : Store α} {ds : List Sequence} {d : Sequence} {id : String} {x : Participant × Nat}

/-- One more diagram puts each of its participants where the first diagram did
    that had it. A recorded width that is not positive would be replaced by the
    default one, which is what was recorded. -/
theorem placedBare_header (hstore : store.Introduces ds) (hd : d.participantIds.Nodup)
    (hx : d.lastPlace? id = some x) :
    (Sequence.introducing? (ds ++ [d]) id).map (fun e => e.defaultHeader id) =
      some (placedBare store d.config.participantSpacing x.1 x.2).header := by
  have hid : x.1.id = id := Sequence.id_of_lastPlace? hx
  have hmem : id ∈ d.participantIds := by
    rw [← Sequence.lastPlace?_isSome, hx]
    rfl
  rw [Sequence.introducing?_append_singleton, if_pos hmem]
  have hrecord := hstore id
  unfold placedBare
  rw [hid]
  cases hfirst : Sequence.introducing? ds id with
  | none =>
    rw [hfirst, Option.map_none] at hrecord
    rw [hrecord, Sequence.index_of_lastPlace? hd hx]
    rfl
  | some e =>
    rw [hfirst, Option.map_some] at hrecord
    rw [hrecord]
    simp only [Option.some_or, Option.map_some, Option.getD_some, ParticipantItem.header, Sequence.defaultHeader]
    congr 2
    exact (ite_self _).symm

/-- Recording a header over itself, or where nothing was, records that
    header. -/
theorem recordOver_header (hstore : store.Introduces ds) (hd : d.participantIds.Nodup)
    (hx : d.lastPlace? id = some x) :
    TimelineStage.recordOver (placedBare store d.config.participantSpacing x.1 x.2).header (store.node? id) =
      (placedBare store d.config.participantSpacing x.1 x.2).header := by
  have hheader := hstore.placedBare_header hd hx
  rw [Sequence.introducing?_append_singleton] at hheader
  rw [hstore id]
  cases hfirst : Sequence.introducing? ds id with
  | none => rfl
  | some e =>
    rw [hfirst, Option.some_or, Option.map_some, Option.some.injEq] at hheader
    rw [Option.map_some, hheader, TimelineStage.recordOver]
    split <;> rfl

end Store.Introduces

namespace TimelineStage

variable {s : TimelineStage α} {ds : List Sequence} {d : Sequence}

/-- Rendering one more diagram keeps the places of the participants that were
    introduced, and introduces those that were not. If the title is refused,
    nothing is recorded, and a new participant is introduced by a later
    diagram. -/
theorem render_introduces (hstore : s.store.Introduces ds) (hd : d.participantIds.Nodup)
    (htitle : ¬ s.RefusesTitle d) : (s.render d).state.store.Introduces (ds ++ [d]) := by
  intro id
  rw [render_node?_of_not_refusesTitle htitle]
  cases hplace : d.lastPlace? id with
  | none =>
    rw [Sequence.introducing?_append_singleton, if_neg (Sequence.lastPlace?_eq_none.mp hplace), Option.or_none]
    exact hstore id
  | some x =>
    dsimp only
    rw [hstore.recordOver_header hd hplace, hstore.placedBare_header hd hplace]

/-- The timeline then has the participants of the diagram, each with the header
    that it got from the first diagram that had it. -/
theorem render_header (hstore : s.store.Introduces ds) (hd : d.participantIds.Nodup)
    (htitle : ¬ s.RefusesTitle d) (id : String) :
    (s.render d).state.picture.participants[id]?.map ParticipantItem.header =
      if id ∈ d.participantIds then
        (Sequence.introducing? (ds ++ [d]) id).map fun e => e.defaultHeader id
      else none := by
  have hbare : (s.render d).state.picture.bare? id = (s.untitled d).picture.bare? id := by
    rw [(render_of_not_refusesTitle htitle).2.1]
    rfl
  have hheader : (s.render d).state.picture.participants[id]?.map ParticipantItem.header =
      ((s.render d).state.picture.bare? id).map ParticipantItem.header := by
    rw [Timeline.bare?, Option.map_map]
    rfl
  rw [hheader, hbare, untitled_bare?]
  cases hplace : d.lastPlace? id with
  | none =>
    rw [if_neg (Sequence.lastPlace?_eq_none.mp hplace)]
    rfl
  | some x =>
    have hmem : id ∈ d.participantIds := by
      rw [← Sequence.lastPlace?_isSome, hplace]
      rfl
    rw [if_pos hmem]
    exact (hstore.placedBare_header hd hplace).symm

/-- Each participant stands where the first diagram put it that had it. -/
theorem render_left (hstore : s.store.Introduces ds) (hd : d.participantIds.Nodup)
    (htitle : ¬ s.RefusesTitle d) (id : String) :
    (s.render d).state.picture.participants[id]?.map ParticipantItem.x =
      if id ∈ d.participantIds then
        (Sequence.introducing? (ds ++ [d]) id).map fun e => e.defaultLeft id
      else none := by
  have hheader := congrArg (Option.map Rect.x) (render_header hstore hd htitle id)
  rw [Option.map_map] at hheader
  refine hheader.trans ?_
  split
  · rw [Option.map_map]
    rfl
  · rfl

end TimelineStage

namespace Session

/-- A stage on which nothing is refused, over a store that knows where each
    participant was introduced. -/
theorem timelineStage_introduces {s : Session α} {ds : List Sequence} (hrefused : s.surface.refused = [])
    (hs : s.store.Introduces ds) (d : Sequence) :
    ¬ (s.timelineStage (d.participants.map Participant.id)).RefusesTitle d ∧
      (s.timelineStage (d.participants.map Participant.id)).store.Introduces ds := by
  rw [refusesTitle_timelineStage, timelineStage_store, hrefused]
  exact ⟨by simp, hs⟩

/-- After some sequence diagrams were shown from the start, the surface refuses
    nothing and the store knows where each participant was introduced. The
    induction is on the diagrams, with the one that is shown last taken off. -/
theorem introduces_run (measure : Measure α) {store : Store α} (hstore : ∀ id, store.node? id = none)
    {ds : List Sequence} (hds : ∀ d ∈ ds, d.OfText) :
    ((start measure store).run (ds.map fun d => .render (.sequence d))).surface.refused = [] ∧
      ((start measure store).run (ds.map fun d => .render (.sequence d))).store.Introduces ds := by
  induction ds using List.reverseRecOn with
  | nil => exact ⟨rfl, fun id => hstore id⟩
  | append_singleton ds d ih =>
    obtain ⟨hrefused, hintroduces⟩ := ih fun e he => hds e (List.mem_append_left _ he)
    rw [List.map_append, List.map_singleton, run, List.foldl_append, List.foldl_cons, List.foldl_nil]
    generalize hs : (ds.map fun d => Call.render (.sequence d)).foldl call (start measure store) = s
    rw [run, hs] at hrefused hintroduces
    obtain ⟨htitle, hstage⟩ := timelineStage_introduces hrefused hintroduces d
    have hd : d.participantIds.Nodup := (hds d (by simp)).nodup
    exact ⟨(s.render_refused (.sequence d)).trans hrefused, TimelineStage.render_introduces hstage hd htitle⟩

/-- Over a store that knows no places, and with nothing moved, each participant
    stands where the first diagram put it that had it. Nothing is asked of the
    store but that it records no places: whether it can be saved does not
    matter, since what was recorded is remembered in any case. -/
theorem exists_timeline_lefts (measure : Measure α) {store : Store α} (hstore : ∀ id, store.node? id = none)
    {ds : List Sequence} {d : Sequence} (hds : ∀ e ∈ ds ++ [d], e.OfText) :
    ∃ t, ((start measure store).run ((ds ++ [d]).map fun e => .render (.sequence e))).picture = .timeline t ∧
      ∀ id, t.participants[id]?.map ParticipantItem.x =
        if id ∈ d.participantIds then (Sequence.introducing? (ds ++ [d]) id).map fun e => e.defaultLeft id
        else none := by
  obtain ⟨hrefused, hintroduces⟩ := introduces_run measure hstore fun e he => hds e (List.mem_append_left [d] he)
  rw [List.map_append, List.map_singleton, run, List.foldl_append, List.foldl_cons, List.foldl_nil]
  generalize hs : (ds.map fun d => Call.render (.sequence d)).foldl call (start measure store) = s
  rw [run, hs] at hrefused hintroduces
  obtain ⟨htitle, hstage⟩ := timelineStage_introduces hrefused hintroduces d
  exact ⟨_, rfl, TimelineStage.render_left hstage (hds d (by simp)).nodup htitle⟩

/-- Over a store that knows no places, and with nothing moved, each participant
    stands where the first text put it that had it. So the participants stand in
    the order of the last text just when the indices they had in these first
    texts are in that order; otherwise some stand on the places of others or to
    the left of them. The second part needs one spacing for all texts, and that
    larger indices give larger places, as they do over the reals for every
    positive spacing. -/
theorem lefts_run_sequences (measure : Measure α) {store : Store α} (hstore : ∀ id, store.node? id = none)
    {ds : List Sequence} {d : Sequence} (hds : ∀ e ∈ ds ++ [d], e.OfText) :
    ∃ t, ((start measure store).run ((ds ++ [d]).map fun e => .render (.sequence e))).picture = .timeline t ∧
      (∀ id, t.participants[id]?.map ParticipantItem.x =
        if id ∈ d.participantIds then (Sequence.introducing? (ds ++ [d]) id).map fun e => e.defaultLeft id
        else none) ∧
      ∀ spacing : α, (∀ e ∈ ds ++ [d], e.config.participantSpacing = spacing) →
        (∀ i j, Layout.participantLeft i spacing < Layout.participantLeft j spacing ↔ i < j) →
        (t.InOrder d.participantIds ↔ d.participantIds.Pairwise fun a b =>
          Sequence.firstIndex (ds ++ [d]) a < Sequence.firstIndex (ds ++ [d]) b) := by
  obtain ⟨t, ht, hleft⟩ := exists_timeline_lefts measure hstore hds
  refine ⟨t, ht, hleft, fun spacing hspacing hmono => ?_⟩
  have hplace (id : String) (hid : id ∈ d.participantIds) : ∃ p, t.participants[id]? = some p ∧
      p.x = Layout.participantLeft (Sequence.firstIndex (ds ++ [d]) id) spacing := by
    obtain ⟨e, he⟩ := Option.isSome_iff_exists.mp
      (Sequence.introducing?_isSome.mpr ⟨d, List.mem_append_right ds (List.mem_singleton_self d), hid⟩)
    have hmem : e ∈ ds ++ [d] := List.mem_of_find?_eq_some he
    have hx := hleft id
    rw [if_pos hid, he, Option.map_some] at hx
    obtain ⟨p, hp, hpx⟩ := Option.map_eq_some_iff.mp hx
    refine ⟨p, hp, ?_⟩
    rw [hpx, Sequence.defaultLeft, hspacing e hmem, Sequence.firstIndex, he]
    rfl
  refine List.Pairwise.iff_of_mem fun {a b} ha hb => ?_
  obtain ⟨p, hp, hpx⟩ := hplace a ha
  obtain ⟨q, hq, hqx⟩ := hplace b hb
  rw [← hmono, ← hpx, ← hqx]
  constructor
  · rintro ⟨p', q', hp', hq', hlt⟩
    obtain rfl := Option.some.inj (hp.symm.trans hp')
    obtain rfl := Option.some.inj (hq.symm.trans hq')
    exact hlt
  · exact fun hlt => ⟨p, q, hp, hq, hlt⟩

/-- A text with one participant, and one that declares another participant
    before it. -/
def insertedBefore : List String :=
  ["sequence\nparticipant a", "sequence\nparticipant b\nparticipant a"]

/-- The diagram of the first of these texts. -/
def declaredAlone : Sequence where
  participants := [⟨"a", "a"⟩]

/-- The diagram of the second. -/
def declaredSecond : Sequence where
  participants := [⟨"b", "b"⟩, ⟨"a", "a"⟩]

theorem ofText_insertedBefore :
    insertedBefore.map Diagram.ofText = ([declaredAlone] ++ [declaredSecond]).map Diagram.sequence :=
  rfl

theorem ofText_of_mem_inserted : ∀ e ∈ [declaredAlone] ++ [declaredSecond], e.OfText := by
  intro e he
  have hmem : Diagram.sequence e ∈ insertedBefore.map Diagram.ofText :=
    ofText_insertedBefore ▸ List.mem_map_of_mem he
  obtain ⟨text, -, htext⟩ := List.mem_map.mp hmem
  exact (htext ▸ Diagram.ofText_ofText text : (Diagram.sequence e).OfText)

/-- Each of the two participants is put at the left end by the text that has it
    first. -/
theorem defaultLeft_inserted (e : Sequence) (id : String) (hid : e.participantIds.idxOf id = 0) :
    (e.defaultLeft id : ℝ) = 0 := by
  simp [Sequence.defaultLeft, Layout.participantLeft, hid]

/-- A participant that a later text puts to the left of one that is there lands
    on top of it. -/
theorem lefts_run_sequences_inserted :
    ∃ t, ((start (fun _ => ⟨0, 0⟩) (Store.inMemory : Store ℝ)).run
        ((insertedBefore.map Diagram.ofText).map .render)).picture = .timeline t ∧
      t.participants["b"]?.map ParticipantItem.x = some 0 ∧
      t.participants["a"]?.map ParticipantItem.x = some 0 ∧ ¬ t.InOrder ["b", "a"] := by
  have hspacing : ∀ e ∈ [declaredAlone] ++ [declaredSecond],
      e.config.participantSpacing = (Layout.participantSpacing : ℝ) := by
    intro e he
    rcases List.mem_pair.mp he with rfl | rfl <;>
      simp [declaredAlone, declaredSecond, Config.participantSpacing]
  obtain ⟨t, ht, hleft, horder⟩ := lefts_run_sequences (fun _ => ⟨0, 0⟩) (Store.node?_inMemory (α := ℝ))
    ofText_of_mem_inserted
  refine ⟨t, ?_, ?_, ?_, ?_⟩
  · rw [ofText_insertedBefore, List.map_map]
    exact ht
  · rw [hleft, if_pos (by decide)]
    exact congrArg some (defaultLeft_inserted declaredSecond "b" (by decide))
  · rw [hleft, if_pos (by decide)]
    exact congrArg some (defaultLeft_inserted declaredAlone "a" (by decide))
  · have hmono (i j : Nat) : Layout.participantLeft i (Layout.participantSpacing : ℝ) <
        Layout.participantLeft j Layout.participantSpacing ↔ i < j := by
      simp [Layout.participantLeft, Layout.participantSpacing]
    intro hinOrder
    exact absurd ((horder Layout.participantSpacing hspacing hmono).mp hinOrder) (by decide)

/-- The participants of the last text do not always stand in its order: the
    place that a participant got from an earlier text is recorded, and counts
    more than its index in the last one. -/
theorem not_inOrder_run_sequences :
    ¬ ∀ (texts : List String) (text : String),
      (∀ other ∈ texts ++ [text], ∃ d, Diagram.ofText other = .sequence d) →
      ∀ (d : Sequence) (t : Timeline ℝ), Diagram.ofText text = .sequence d →
        ((start (fun _ => ⟨0, 0⟩) (Store.inMemory : Store ℝ)).run
          (((texts ++ [text]).map Diagram.ofText).map .render)).picture = .timeline t →
        t.InOrder d.participantIds := by
  intro hall
  obtain ⟨t, ht, hleft⟩ := exists_timeline_lefts (fun _ => ⟨0, 0⟩) (Store.node?_inMemory (α := ℝ))
    ofText_of_mem_inserted
  have htexts : ∀ other ∈ ["sequence\nparticipant a"] ++ ["sequence\nparticipant b\nparticipant a"],
      ∃ d, Diagram.ofText other = .sequence d := by
    intro other hother
    rcases List.mem_pair.mp hother with rfl | rfl
    · exact ⟨declaredAlone, rfl⟩
    · exact ⟨declaredSecond, rfl⟩
  have hinOrder := hall ["sequence\nparticipant a"] "sequence\nparticipant b\nparticipant a" htexts
    declaredSecond t rfl ht
  obtain ⟨p, q, hp, hq, hlt⟩ := List.pairwise_pair.mp hinOrder
  have hpx := hleft "b"
  have hqx := hleft "a"
  rw [hp, if_pos (by decide)] at hpx
  rw [hq, if_pos (by decide)] at hqx
  have hpx' : p.x = 0 := (Option.some.inj hpx).trans (defaultLeft_inserted declaredSecond "b" (by decide))
  have hqx' : q.x = 0 := (Option.some.inj hqx).trans (defaultLeft_inserted declaredAlone "a" (by decide))
  rw [hpx', hqx'] at hlt
  exact lt_irrefl 0 hlt

end Session

end LiveDiagram
