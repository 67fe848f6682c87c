import Mathlib.Data.List.Nodup
import LiveDiagram.Proofs.Timeline.Tidy

namespace LiveDiagram

variable {α : Type}

namespace TimelineStage

section Found

variable {s : TimelineStage α} {d : Sequence} {name : String}

/-- An id that starts with another letter is not that of the title. -/
theorem ne_title_of_head? {c : Char} (hname : name.toList.head? = some c) (hc : c ≠ 't') :
    name ≠ Part.title.id := by
  rintro rfl
  exact hc (Option.some.inj hname).symm

/-- On a tidy timeline, what is found under the letter of messages is a part of
    one that is there. -/
theorem Tidy.exists_message (hs : s.Tidy) (hhead : name.toList.head? = some 'm')
    (hname : name ∈ s.surface.primitives) :
    ∃ key ∈ s.picture.messages, name ∈ MessageItem.partIds key := by
  rcases hs.owned name hname with htitle | ⟨id, _, hpart⟩ | hmessage | ⟨key, _, hpart⟩
  · exact absurd htitle (ne_title_of_head? hhead (by decide))
  · rw [ParticipantItem.head?_of_mem_partIds hpart] at hhead
    simp at hhead
  · exact hmessage
  · rw [NoteItem.head?_of_mem_partIds hpart] at hhead
    simp at hhead

/-- On a tidy timeline, what is found under the letter of notes is a part of one
    that is there. -/
theorem Tidy.exists_note (hs : s.Tidy) (hhead : name.toList.head? = some 'n')
    (hname : name ∈ s.surface.primitives) : ∃ key ∈ s.picture.notes, name ∈ NoteItem.partIds key := by
  rcases hs.owned name hname with htitle | ⟨id, _, hpart⟩ | ⟨key, _, hpart⟩ | hnote
  · exact absurd htitle (ne_title_of_head? hhead (by decide))
  · rw [ParticipantItem.head?_of_mem_partIds hpart] at hhead
    simp at hhead
  · rw [MessageItem.head?_of_mem_partIds hpart] at hhead
    simp at hhead
  · exact hnote

variable [Scalar α]

/-- After a rendering the title is drawn last, over what the notes have left. -/
theorem render_found (haccepts : s.surface.Accepts) (hcovered : s.CoveredBy d) (name : String) :
    (s.render d).state.surface.primitives[name]? =
      Mark.effect ((s.rendered d).titleMarks s.measure) name
        (s.withNotes d).surface.primitives[name]? := by
  have hnotes := (withNotes_sameSetup haccepts d).accepts haccepts
  rw [(render_scene haccepts hcovered).2, hnotes.draw_getElem?]

/-- Apart from the title, a rendering leaves what the notes have left. -/
theorem render_found_of_ne_title (haccepts : s.surface.Accepts) (hcovered : s.CoveredBy d)
    (hname : name ≠ Part.title.id) :
    (s.render d).state.surface.primitives[name]? = (s.withNotes d).surface.primitives[name]? := by
  rw [render_found haccepts hcovered, Mark.effect_of_not_mem]
  rw [Timeline.ids_titleMarks]
  exact fun hmem => hname (List.mem_singleton.mp hmem)

theorem withNotes_found_of_head (haccepts : s.surface.Accepts) (hname : name.toList.head? ≠ some 'n') :
    (s.withNotes d).surface.primitives[name]? = (s.withMessages d).surface.primitives[name]? :=
  (withNotes_ran haccepts d).found_of_foreign fun _ hpart =>
    hname (NoteItem.head?_of_mem_partIds hpart)

/-- Drawing the messages changes nothing under other letters than theirs. -/
theorem withMessages_found_of_head (haccepts : s.surface.Accepts)
    (hname : name.toList.head? ≠ some 'm') :
    (s.withMessages d).surface.primitives[name]? = (s.placeParticipants d).surface.primitives[name]? :=
  (withMessages_ran haccepts d).found_of_foreign fun _ hpart =>
    hname (MessageItem.head?_of_mem_partIds hpart)

/-- Drawing the participants changes nothing under other letters than theirs. -/
theorem placeParticipants_found_of_head (haccepts : s.surface.Accepts)
    (hname : name.toList.head? ≠ some 'p') :
    (s.placeParticipants d).surface.primitives[name]? = s.surface.primitives[name]? := by
  rw [placeParticipants_eq, placeAll_found _ _ haccepts, Mark.effect_of_not_mem]
  intro hmem
  obtain ⟨x, _, hpart⟩ := mem_ids_participantMarks.mp hmem
  exact hname (ParticipantItem.head?_of_mem_partIds hpart)

/-- Under the ids of parts of messages, a rendering leaves the marks of the
    messages of the diagram. On a tidy timeline nothing is left there from
    before. -/
theorem render_found_message (hs : s.Tidy) (hcovered : s.CoveredBy d)
    (hname : name.toList.head? = some 'm') :
    (s.render d).state.surface.primitives[name]? =
      Mark.effect ((presentMessages (s.placeParticipants d).picture d).flatMap
        (messagePhase.marks (s.placeParticipants d))) name none := by
  have hran := withMessages_ran hs.accepts d
  rw [render_found_of_ne_title hs.accepts hcovered (ne_title_of_head? hname (by decide)),
    withNotes_found_of_head hs.accepts (by simp [hname])]
  by_cases hstale : messagePhase.Stale (s.placeParticipants d)
      (presentMessages (s.placeParticipants d).picture d) name
  · rw [hran.found_of_stale name hstale, Mark.effect_of_not_mem]
    intro hmem
    obtain ⟨x, hx, hpart⟩ := messagePhase.mem_ids_flatMap.mp hmem
    obtain ⟨key, _, hgone, hstalePart⟩ := hstale
    exact hgone (MessageItem.eq_of_mem_partIds hpart hstalePart ▸ List.mem_map_of_mem hx)
  · refine hran.found_eq_effect hstale fun hbefore => ?_
    rw [Std.ExtTreeMap.mem_iff_isSome_getElem?,
      placeParticipants_found_of_head hs.accepts (by simp [hname]),
      ← Std.ExtTreeMap.mem_iff_isSome_getElem?] at hbefore
    obtain ⟨key, hkey, hpart⟩ := hs.exists_message hname hbefore
    rw [← placeParticipants_messages (d := d)] at hkey
    exact ⟨key, Std.ExtTreeMap.mem_iff_isSome_getElem?.mp hkey, hpart⟩

/-- The notes that are rendered are those of the diagram over participants that
    are there. -/
theorem mem_rendered_notes (haccepts : s.surface.Accepts) {key : String} :
    key ∈ (s.rendered d).notes ↔
      ∃ x ∈ presentNotes (s.placeParticipants d).picture d, x.1.key x.2.2 = key := by
  have hkey := (withNotes_ran haccepts d).isSome_lookup_iff (k := key)
  rw [List.mem_map] at hkey
  exact Std.ExtTreeMap.mem_iff_isSome_getElem?.trans hkey

/-- Which notes are rendered can be told from the diagram, as the participants
    that are there are those of the diagram. -/
theorem mem_rendered_notes_iff (haccepts : s.surface.Accepts)
    (hcovered : s.CoveredBy d) {key : String} :
    key ∈ (s.rendered d).notes ↔ ∃ n index, (n, index) ∈ d.notes.zipIdx ∧
      (∃ id ∈ n.participants, id ∈ d.participants.map Participant.id) ∧ n.key index = key := by
  have hpresent (n : Note) (index : Nat) :
      (∃ ids, (n, ids, index) ∈ presentNotes (s.placeParticipants d).picture d) ↔
        (n, index) ∈ d.notes.zipIdx ∧ ∃ id ∈ n.participants, id ∈ d.participants.map Participant.id := by
    simp only [exists_presentNotes, mem_placeParticipants hcovered]
  rw [mem_rendered_notes haccepts]
  constructor
  · rintro ⟨⟨n, ids, index⟩, hx, hkey⟩
    obtain ⟨hmem, hdeclared⟩ := (hpresent n index).mp ⟨ids, hx⟩
    exact ⟨n, index, hmem, hdeclared, hkey⟩
  · rintro ⟨n, index, hmem, hdeclared, hkey⟩
    obtain ⟨ids, hx⟩ := (hpresent n index).mpr ⟨hmem, hdeclared⟩
    exact ⟨(n, ids, index), hx, hkey⟩

/-- A note that is rendered has the text and the height that the diagram gives
    it, and a box around the participants of the note that was there, if one
    was. -/
theorem rendered_notes_getElem? (haccepts : s.surface.Accepts) {x : Note × List String × Nat}
    (hx : x ∈ presentNotes (s.placeParticipants d).picture d) :
    (s.rendered d).notes[x.1.key x.2.2]? =
      some ((s.withMessages d).placedNote d.messages.length x.1 x.2.1 x.2.2) :=
  (withNotes_ran haccepts d).lookup_of_mem x hx

/-- What a note becomes, told before the messages are put: they have no say in
    it. -/
theorem placedNote_withMessages (haccepts : s.surface.Accepts) (x : Note × List String × Nat) :
    (s.withMessages d).placedNote d.messages.length x.1 x.2.1 x.2.2 =
      { note := { participants := placedIds s.picture x.1 x.2.1 x.2.2, text := x.1.text }
        y := Layout.noteY d.messages.length x.2.2
        rect := (s.rendered d).noteBox (placedIds s.picture x.1 x.2.1 x.2.2)
          (Layout.noteY d.messages.length x.2.2) (s.measure x.1.text).height } := by
  have hids : placedIds (s.withMessages d).picture x.1 x.2.1 x.2.2 =
      placedIds s.picture x.1 x.2.1 x.2.2 := by
    unfold placedIds
    rw [withMessages_notes]
  have hframe := (withNotes_ran haccepts d).frame
  have hbox : (s.rendered d).noteBox = (s.withMessages d).picture.noteBox :=
    Timeline.noteBox_congr hframe.bare
  have hmeasure : (s.withMessages d).measure = s.measure := by
    rw [← hframe.setup.measure]
    exact (withNotes_sameSetup haccepts d).measure
  unfold placedNote
  rw [hids, hbox, hmeasure]

/-- An id is stale if it is that of a part of a note that the timeline has and
    the diagram has not. -/
theorem stale_iff (haccepts : s.surface.Accepts) :
    (notePhase d.messages.length).Stale (s.withMessages d)
      (presentNotes (s.placeParticipants d).picture d) name ↔
        ∃ key ∈ s.picture.notes, key ∉ (s.rendered d).notes ∧ name ∈ NoteItem.partIds key := by
  refine exists_congr fun key => ?_
  have hthere : ((notePhase d.messages.length).lookup (s.withMessages d) key).isSome ↔
      key ∈ s.picture.notes := by
    rw [← withMessages_notes (d := d)]
    exact Std.ExtTreeMap.mem_iff_isSome_getElem?.symm
  rw [hthere, List.mem_map, mem_rendered_notes haccepts]
  rfl

/-- Nothing is left under an id that is stale, also where it is that of a part
    of another note: stale notes are erased after the others are drawn. -/
theorem render_found_of_stale (hs : s.Tidy) (hcovered : s.CoveredBy d)
    (hstale : (notePhase d.messages.length).Stale (s.withMessages d)
      (presentNotes (s.placeParticipants d).picture d) name) :
    (s.render d).state.surface.primitives[name]? = none := by
  obtain ⟨key, _, _, hpart⟩ := id hstale
  have hhead := NoteItem.head?_of_mem_partIds hpart
  rw [render_found_of_ne_title hs.accepts hcovered (ne_title_of_head? hhead (by decide))]
  exact (withNotes_ran hs.accepts d).found_of_stale name hstale

/-- Under the ids of parts of notes, a rendering leaves the marks of the notes
    of the diagram, unless the id is that of a part of a stale note too. -/
theorem render_found_note (hs : s.Tidy) (hcovered : s.CoveredBy d)
    (hname : name.toList.head? = some 'n')
    (hfresh : ¬(notePhase d.messages.length).Stale (s.withMessages d)
      (presentNotes (s.placeParticipants d).picture d) name) :
    (s.render d).state.surface.primitives[name]? =
      Mark.effect ((presentNotes (s.placeParticipants d).picture d).flatMap
        ((notePhase d.messages.length).marks (s.withMessages d))) name none := by
  rw [render_found_of_ne_title hs.accepts hcovered (ne_title_of_head? hname (by decide))]
  refine (withNotes_ran hs.accepts d).found_eq_effect hfresh fun hbefore => ?_
  rw [Std.ExtTreeMap.mem_iff_isSome_getElem?,
    withMessages_found_of_head hs.accepts (by simp [hname]),
    placeParticipants_found_of_head hs.accepts (by simp [hname]),
    ← Std.ExtTreeMap.mem_iff_isSome_getElem?] at hbefore
  obtain ⟨key, hkey, hpart⟩ := hs.exists_note hname hbefore
  rw [← withMessages_notes (d := d)] at hkey
  exact ⟨key, Std.ExtTreeMap.mem_iff_isSome_getElem?.mp hkey, hpart⟩

/-- No two marks of the notes of a diagram have the same id: their keys start
    with different indices, also where one id goes on with the ending of
    another. -/
theorem nodup_noteMarks (s t : TimelineStage α) (d : Sequence) :
    (Mark.ids ((presentNotes s.picture d).flatMap
      ((notePhase d.messages.length).marks t))).Nodup := by
  rw [List.flatMap, Mark.ids_flatten, List.map_map, List.nodup_flatten]
  constructor
  · intro ids hids
    obtain ⟨x, _, rfl⟩ := List.mem_map.mp hids
    exact NoteItem.nodup_partIds _
  · refine List.pairwise_map.mpr ((pairwise_presentNotes s.picture d).imp fun hne => ?_)
    intro name hname hname'
    rcases NoteItem.mem_partIds_cases hname hname' with heq | heq | heq
    · exact hne (Note.index_eq_of_key_eq heq)
    · exact hne (Note.index_eq_of_key_eq_append heq)
    · exact hne (Note.index_eq_of_key_eq_append heq).symm

/-- A part of a note of the diagram is found as it is drawn, unless its id is
    that of a part of a stale note too. -/
theorem render_found_put (hs : s.Tidy) (hcovered : s.CoveredBy d)
    {x : Note × List String × Nat} (hx : x ∈ presentNotes (s.placeParticipants d).picture d)
    {p : Primitive α} (hp : Mark.put name p ∈ (notePhase d.messages.length).marks (s.withMessages d) x)
    (hfresh : ¬(notePhase d.messages.length).Stale (s.withMessages d)
      (presentNotes (s.placeParticipants d).picture d) name) :
    (s.render d).state.surface.primitives[name]? = some p := by
  have hpart : name ∈ NoteItem.partIds (x.1.key x.2.2) := Mark.mem_ids hp
  rw [render_found_note hs hcovered (NoteItem.head?_of_mem_partIds hpart) hfresh]
  exact Mark.effect_of_nodup (nodup_noteMarks _ _ d) (List.mem_flatMap_of_mem hx hp) none

/-- Under all other ids, a rendering leaves the marks of the participants and
    the title. -/
theorem render_found_rest (hs : s.Tidy) (hcovered : s.CoveredBy d)
    (hnote : name.toList.head? ≠ some 'n') (hmessage : name.toList.head? ≠ some 'm') :
    (s.render d).state.surface.primitives[name]? =
      Mark.effect ((s.rendered d).titleMarks s.measure) name
        (Mark.effect (participantMarks s.store d.config.participantSpacing d.participants.zipIdx)
          name none) := by
  rw [render_found hs.accepts hcovered, withNotes_found_of_head hs.accepts hnote,
    withMessages_found_of_head hs.accepts hmessage, placeParticipants_eq,
    placeAll_found _ _ hs.accepts]
  by_cases htitle : name = Part.title.id
  · apply Mark.effect_of_mem
    rw [Timeline.ids_titleMarks, htitle]
    exact List.mem_singleton_self _
  · by_cases hmem : name ∈ Mark.ids
        (participantMarks s.store d.config.participantSpacing d.participants.zipIdx)
    · rw [Mark.effect_of_mem hmem]
    · -- a participant that was there is one of the diagram, so its parts are drawn anew
      have hnone : s.surface.primitives[name]? = none := by
        apply Std.ExtTreeMap.getElem?_eq_none
        intro hbefore
        rcases hs.owned name hbefore with h | ⟨id, hid, hpart⟩ | ⟨key, _, hpart⟩ | ⟨key, _, hpart⟩
        · exact htitle h
        · have hspec := hcovered id hid
          rw [← d.zipIdx_participantIds] at hspec
          obtain ⟨x, hx, rfl⟩ := List.mem_map.mp hspec
          exact hmem (mem_ids_participantMarks.mpr ⟨x, hx, hpart⟩)
        · exact hmessage (MessageItem.head?_of_mem_partIds hpart)
        · exact hnote (NoteItem.head?_of_mem_partIds hpart)
      rw [hnone]

end Found

end TimelineStage

end LiveDiagram
