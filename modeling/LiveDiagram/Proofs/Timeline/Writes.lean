import LiveDiagram.Proofs.Timeline.Operations

namespace LiveDiagram

variable {α : Type}

namespace Timeline

/-- Without a participant, the other ones stay, but for their lists. -/
theorem withoutParticipant_bare? (t : Timeline α) (id other : String) :
    (t.withoutParticipant id).bare? other = if id = other then none else t.bare? other := by
  unfold withoutParticipant
  cases hp : t.participants[id]? with
  | none =>
    by_cases h : id = other
    · rw [if_pos h, bare?, ← h, hp]
      rfl
    · rw [if_neg h]
  | some p =>
    let u : Timeline α := p.noteKeys.foldl withoutNote (p.messageKeys.foldl withoutMessage t)
    have hmessages : (p.messageKeys.foldl withoutMessage t).bare? other = t.bare? other :=
      foldl_view (fun t : Timeline α => t.bare? other) (fun t key => t.withoutMessage_bare? key other) _ t
    have hnotes : u.bare? other = (p.messageKeys.foldl withoutMessage t).bare? other :=
      foldl_view (fun t : Timeline α => t.bare? other) (fun t key => t.withoutNote_bare? key other) _ _
    show Option.map ParticipantItem.bare (u.participants.erase id)[other]? = _
    rw [← hmessages, ← hnotes, bare?, Std.ExtTreeMap.getElem?_erase]
    by_cases h : id = other
    · simp [h]
    · simp [h]

end Timeline

namespace TimelineStage

/-- Participants that the diagram does not have are removed, and the others
    stay. The induction is on the ids that are there. -/
theorem removeStaleParticipants_bare? (s : TimelineStage α) (ids : List String) (id : String) :
    (s.removeStaleParticipants ids).picture.bare? id = if id ∈ ids then s.picture.bare? id else none := by
  have hremoved (stale : List String) (s : TimelineStage α) :
      (stale.foldl removeParticipant s).picture.bare? id =
        if id ∈ stale then none else s.picture.bare? id := by
    induction stale generalizing s with
    | nil => simp
    | cons first stale ih =>
      rw [List.foldl_cons, ih, removeParticipant_picture, Timeline.withoutParticipant_bare?]
      by_cases h : first = id
      · simp [h]
      · simp [h, Ne.symm h]
  unfold removeStaleParticipants
  rw [hremoved]
  by_cases hid : id ∈ ids
  · simp [hid]
  · rw [if_neg hid]
    split
    · rfl
    · rename_i hkept
      have hnot : id ∉ s.picture.participants := by simpa [hid] using hkept
      rw [Timeline.mem_participants_iff, Option.not_isSome_iff_eq_none] at hnot
      exact hnot

variable [Scalar α]

/-- Of several participants with one id that are placed, the last one stays. The
    induction is on those that are placed. -/
theorem placeAll_bare? (s : TimelineStage α) (spacing : α) (specs : List (Participant × Nat)) (id : String) :
    (s.placeAll spacing specs).picture.bare? id =
      ((specs.reverse.find? fun x => x.1.id == id).map fun x => placedBare s.store spacing x.1 x.2).or
        (s.picture.bare? id) := by
  unfold placeAll
  induction specs generalizing s with
  | nil => rfl
  | cons x specs ih =>
    have hplaced : placedBare (s.placeParticipant spacing x.1 x.2).state.store spacing =
        placedBare s.store spacing := by
      funext spec index
      rw [placeParticipant_store, placedBare_load]
    rw [List.foldl_cons, ih, hplaced, placeParticipant_bare?, List.reverse_cons, List.find?_append]
    by_cases hx : x.1.id = id
    · cases specs.reverse.find? (fun x => x.1.id == id) <;> simp [hx]
    · cases specs.reverse.find? (fun x => x.1.id == id) <;> simp [hx]

/-- When the title is drawn, the timeline has the participants of the diagram
    and no others, each at its last place in the diagram. -/
theorem untitled_bare? (s : TimelineStage α) (d : Sequence) (id : String) :
    (s.untitled d).picture.bare? id =
      (d.lastPlace? id).map fun x => placedBare s.store d.config.participantSpacing x.1 x.2 := by
  let pruned : TimelineStage α := s.removeStaleParticipants d.participantIds
  have hstore : pruned.store = s.store := foldl_view Stage.store removeParticipant_store _ s
  have hframe : SameFrame (pruned.placeParticipants d) (s.untitled d) :=
    (placeMessages_frame _ d).trans (placeNotes_frame _ d)
  have hnone : d.lastPlace? id = none → pruned.picture.bare? id = none := by
    intro h
    rw [removeStaleParticipants_bare?, if_neg (Sequence.lastPlace?_eq_none.mp h)]
  rw [hframe.bare, placeParticipants_eq, placeAll_bare?, hstore]
  cases h : d.lastPlace? id with
  | none =>
    unfold Sequence.lastPlace? at h
    rw [h, hnone h]
    rfl
  | some x =>
    unfold Sequence.lastPlace? at h
    rw [h]
    rfl

/-- What is recorded of a participant with that header: what was recorded, if it
    is the same. A record that is a header already is left alone. -/
def recordOver (header : Rect α) : Option (Rect α) → Rect α
  | some r => if r.same header then r else header
  | none => header

/-- What is recorded under an id once the participants that are there are
    recorded. -/
def recordOf (s : TimelineStage α) (id : String) : Option (Rect α) :=
  match s.picture.bare? id with
  | some p => some (recordOver p.header (s.store.node? id))
  | none => s.store.node? id

/-- Recording a participant is seen at that participant and at no other node. -/
theorem persistParticipant_node? (s : TimelineStage α) (id other : String) :
    (s.persistParticipant id).store.node? other =
      if id = other then s.recordOf id else s.store.node? other := by
  unfold persistParticipant recordOf Timeline.bare?
  cases hp : s.picture.participants[id]? with
  | none =>
    by_cases h : id = other
    · simp [h]
    · simp [h]
  | some p =>
    have hheader : p.bare.header = p.header := rfl
    simp only [Option.map_some, hheader]
    cases hr : s.store.node? id with
    | none =>
      simp only [Option.any_none, Bool.false_eq_true, if_false, recordOver]
      exact s.store.node?_setNode id other p.header
    | some r =>
      simp only [Option.any_some, recordOver]
      by_cases hsame : r.same p.header = true
      · rw [if_pos hsame, if_pos hsame]
        dsimp only
        rw [Store.node?_load]
        by_cases h : id = other
        · rw [if_pos h, ← h, hr]
        · rw [if_neg h]
      · rw [if_neg hsame, if_neg hsame]
        exact s.store.node?_setNode id other p.header

/-- Recording participants is seen at these and at no other node. They are
    different, so the record of each is compared with the one that was there at
    the start. -/
theorem foldl_persistParticipant_node? {ids : List String} (hids : ids.Nodup) (s : TimelineStage α)
    (id : String) :
    (ids.foldl persistParticipant s).store.node? id =
      if id ∈ ids then s.recordOf id else s.store.node? id := by
  induction ids generalizing s with
  | nil => simp
  | cons first ids ih =>
    obtain ⟨hfirst, hids⟩ := List.nodup_cons.mp hids
    have hpicture : (s.persistParticipant first).picture = s.picture :=
      congrArg Prod.fst (s.persistParticipant_scene first)
    have hnode := s.persistParticipant_node? first id
    rw [List.foldl_cons, ih hids]
    by_cases h : first = id
    · rw [if_pos h] at hnode
      subst h
      simp [hfirst, hnode]
    · rw [if_neg h] at hnode
      have hrecord : (s.persistParticipant first).recordOf id = s.recordOf id := by
        unfold recordOf
        rw [hpicture, hnode]
      simp [Ne.symm h, hrecord, hnode]

section Render

variable {s : TimelineStage α} {d : Sequence}

/-- A rendering that is stopped at its title records nothing. -/
theorem render_node?_of_refusesTitle (h : s.RefusesTitle d) (id : String) :
    (s.render d).state.store.node? id = s.store.node? id := by
  have hstore : (s.render d).state.store.load = s.store.load := by
    rw [render_of_refusesTitle h]
    exact s.untitled_store d
  rw [← Store.node?_load, hstore, Store.node?_load]

/-- A rendering that is not stopped records the header of each participant of
    the diagram, and nothing else of nodes or participants. A participant was
    placed by its record, as far as there is one, so the header differs from the
    record in its top side and its height at most. -/
theorem render_node?_of_not_refusesTitle (h : ¬ s.RefusesTitle d) (id : String) :
    (s.render d).state.store.node? id =
      match d.lastPlace? id with
      | some x => some (recordOver (placedBare s.store d.config.participantSpacing x.1 x.2).header
          (s.store.node? id))
      | none => s.store.node? id := by
  have hstore : (s.render d).state.store = (s.recorded d).store := by
    rw [render_eq_of_not_refusesTitle h]
    rfl
  have hbare : (s.titled d).picture.bare? id = (s.untitled d).picture.bare? id := rfl
  have hnode : (s.titled d).store.node? id = s.store.node? id := by
    show (s.untitled d).store.node? id = _
    rw [← Store.node?_load, s.untitled_store d, Store.node?_load]
  have hrecord : (s.titled d).recordOf id =
      match d.lastPlace? id with
      | some x => some (recordOver (placedBare s.store d.config.participantSpacing x.1 x.2).header
          (s.store.node? id))
      | none => s.store.node? id := by
    unfold recordOf
    rw [hbare, untitled_bare?, hnode]
    cases d.lastPlace? id <;> rfl
  rw [hstore, ← hrecord, recorded, foldl_persistParticipant_node? Std.ExtTreeMap.nodup_keys]
  split
  · rfl
  · -- a participant that is not there leaves the record as it is
    rename_i hnot
    rw [Std.ExtTreeMap.mem_keys, Timeline.mem_participants_iff, Option.not_isSome_iff_eq_none] at hnot
    unfold recordOf
    rw [hnot]

end Render

end TimelineStage

end LiveDiagram
