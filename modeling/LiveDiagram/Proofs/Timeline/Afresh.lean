import LiveDiagram.Proofs.Timeline.Found

namespace LiveDiagram

variable {α : Type} [Scalar α]

/-- Replacing the notes of one timeline by those of another leaves the latter
    whole. No part of a note that goes has the id of a part of a note that
    comes, and each note that stays spans its participants as the new one does,
    though it may name them in another order. -/
structure Timeline.NotesAgree (measure : Measure α) (old new : Timeline α) : Prop where
  apart : ∀ key ∈ old.notes, key ∉ new.notes → ∀ other ∈ new.notes,
    key ≠ other ++ ":label" ∧ other ≠ key ++ ":label"
  boxes : ∀ (key : String) (n n' : NoteItem α), old.notes[key]? = some n → new.notes[key]? = some n' →
    new.noteBox n.note.participants n'.y (measure n'.note.text).height =
      new.noteBox n'.note.participants n'.y (measure n'.note.text).height

namespace TimelineStage

/-- Two tidy stages with one store and one measure, and a diagram that has all
    their participants. -/
structure Comparable (d : Sequence) (s t : TimelineStage α) : Prop where
  tidy : s.Tidy
  tidy' : t.Tidy
  covered : s.CoveredBy d
  covered' : t.CoveredBy d
  store : t.store = s.store
  measure : t.measure = s.measure
  barFree : ∀ m ∈ d.messages, m.BarFree

namespace Comparable

variable {d : Sequence} {s t : TimelineStage α}

/-- The participants of the diagram are the same on both stages but for their
    lists, as their places come from the store and the diagram. -/
theorem bare (h : Comparable d s t) (id : String) :
    (t.placeParticipants d).picture.bare? id = (s.placeParticipants d).picture.bare? id := by
  refine placeAll_bare?_congr _ _ h.store ?_
  rw [d.zipIdx_participantIds]
  by_cases hid : id ∈ d.participants.map Participant.id
  · exact .inl hid
  · right
    have hs : s.picture.bare? id = none := by
      rw [← Option.not_isSome_iff_eq_none, ← Timeline.mem_participants_iff]
      exact fun hmem => hid (h.covered id hmem)
    have ht : t.picture.bare? id = none := by
      rw [← Option.not_isSome_iff_eq_none, ← Timeline.mem_participants_iff]
      exact fun hmem => hid (h.covered' id hmem)
    rw [hs, ht]

theorem presentMessages_eq (h : Comparable d s t) :
    presentMessages (t.placeParticipants d).picture d =
      presentMessages (s.placeParticipants d).picture d :=
  presentMessages_congr h.bare d

/-- The diagram has the same notes over the same participants on both stages. -/
theorem presentNotes_eq (h : Comparable d s t) :
    presentNotes (t.placeParticipants d).picture d = presentNotes (s.placeParticipants d).picture d :=
  presentNotes_congr h.bare d

/-- A message of the diagram is drawn in the same way on both stages. Its key
    has no bar in the ids of the ends, so a message that is there under it is
    the same one. -/
theorem messageMarks_eq (h : Comparable d s t) {x : Message × Nat} (hx : x.1 ∈ d.messages) :
    (t.placeParticipants d).messageMarks x.1 x.2 = (s.placeParticipants d).messageMarks x.1 x.2 := by
  have hbar := h.barFree x.1 hx
  unfold messageMarks
  rw [placedMessage_of_keyed (keyed_placeParticipants h.tidy) hbar,
    placedMessage_of_keyed (keyed_placeParticipants h.tidy') hbar, Timeline.centerOf_congr h.bare,
    (t.placeParticipants_sameSetup d).measure, (s.placeParticipants_sameSetup d).measure, h.measure]

/-- After the rendering the participants are the same on both stages, but for
    their lists. -/
theorem rendered_bare (h : Comparable d s t) (id : String) :
    (t.rendered d).bare? id = (s.rendered d).bare? id := by
  have hs := (withNotes_frame h.tidy.accepts d).bare id
  have ht := (withNotes_frame h.tidy'.accepts d).bare id
  exact ht.trans ((h.bare id).trans hs.symm)

theorem titleMarks_eq (h : Comparable d s t) :
    (t.rendered d).titleMarks t.measure = (s.rendered d).titleMarks s.measure := by
  rw [h.measure]
  exact Timeline.titleMarks_congr s.measure rfl h.rendered_bare

/-- Apart from notes, a diagram leaves the same on both stages, whatever the
    timelines were before. The first letter of an id tells which step
    decides. -/
theorem render_found_of_head (h : Comparable d s t) {name : String}
    (hname : name.toList.head? ≠ some 'n') :
    (t.render d).state.surface.primitives[name]? = (s.render d).state.surface.primitives[name]? := by
  by_cases hmessage : name.toList.head? = some 'm'
  · have hmarks : (presentMessages (s.placeParticipants d).picture d).flatMap
        (messagePhase.marks (t.placeParticipants d)) =
          (presentMessages (s.placeParticipants d).picture d).flatMap
            (messagePhase.marks (s.placeParticipants d)) := by
      refine congrArg List.flatten (List.map_congr_left fun x hx => ?_)
      exact h.messageMarks_eq (mem_of_mem_presentMessages hx)
    rw [render_found_message h.tidy h.covered hmessage, render_found_message h.tidy' h.covered' hmessage,
      h.presentMessages_eq, hmarks]
  · rw [render_found_rest h.tidy h.covered hname hmessage,
      render_found_rest h.tidy' h.covered' hname hmessage, h.titleMarks_eq, h.store]

theorem noteBox_eq (h : Comparable d s t) : (t.rendered d).noteBox = (s.rendered d).noteBox :=
  Timeline.noteBox_congr h.rendered_bare

/-- The diagram has the same notes on both stages, under the same keys. -/
theorem mem_notes_iff (h : Comparable d s t) {key : String} :
    key ∈ (t.rendered d).notes ↔ key ∈ (s.rendered d).notes := by
  rw [mem_rendered_notes_iff h.tidy.accepts h.covered, mem_rendered_notes_iff h.tidy'.accepts h.covered']

omit [Scalar α] in
/-- Without notes there is no older one of which a note could keep the
    participants. -/
theorem placedIds_of_empty (hempty : t.picture.notes = ∅) (x : Note × List String × Nat) :
    placedIds t.picture x.1 x.2.1 x.2.2 = x.2.1 := by
  unfold placedIds
  simp [hempty]

theorem not_stale_of_empty (h : Comparable d s t) (hempty : t.picture.notes = ∅) (name : String) :
    ¬(notePhase d.messages.length).Stale (t.withMessages d)
      (presentNotes (t.placeParticipants d).picture d) name := by
  rw [stale_iff h.tidy'.accepts]
  rintro ⟨key, hkey, -⟩
  simp [hempty] at hkey

/-- If the notes agree, every note of the diagram has the same box on both
    stages, be it one that stays or a new one. -/
theorem rect_eq (h : Comparable d s t) (hempty : t.picture.notes = ∅)
    (hagree : Timeline.NotesAgree t.measure s.picture (t.rendered d)) {x : Note × List String × Nat}
    (hx : x ∈ presentNotes (t.placeParticipants d).picture d) :
    ((s.withMessages d).placedNote d.messages.length x.1 x.2.1 x.2.2).rect =
      ((t.withMessages d).placedNote d.messages.length x.1 x.2.1 x.2.2).rect := by
  have hnew := rendered_notes_getElem? h.tidy'.accepts hx
  rw [placedNote_withMessages h.tidy'.accepts] at hnew ⊢
  rw [placedNote_withMessages h.tidy.accepts, ← h.noteBox_eq, ← h.measure]
  dsimp only
  cases hn : s.picture.notes[x.1.key x.2.2]? with
  | none =>
    rw [placedIds_of_empty hempty, placedIds, hn]
  | some n =>
    rw [placedIds, hn]
    exact hagree.boxes _ n _ hn hnew

/-- If the notes agree, every part of a note of the diagram is drawn the same on
    both stages, and no other part of a note is left. -/
theorem render_found_of_notesAgree (h : Comparable d s t) (hempty : t.picture.notes = ∅)
    (hagree : Timeline.NotesAgree t.measure s.picture (t.rendered d)) {name : String}
    (hname : name.toList.head? = some 'n') :
    (t.render d).state.surface.primitives[name]? = (s.render d).state.surface.primitives[name]? := by
  have hfresh := h.not_stale_of_empty hempty name
  by_cases hitem : ∃ x ∈ presentNotes (t.placeParticipants d).picture d,
      name ∈ NoteItem.partIds (x.1.key x.2.2)
  · -- a part of a note of the diagram: nothing stale erases it, and its box is the same
    obtain ⟨x, hx, hpart⟩ := hitem
    have hother := (mem_rendered_notes h.tidy'.accepts).mpr ⟨x, hx, rfl⟩
    have hkept : ¬(notePhase d.messages.length).Stale (s.withMessages d)
        (presentNotes (s.placeParticipants d).picture d) name := by
      rw [stale_iff h.tidy.accepts]
      rintro ⟨key, hkey, hgone, hpart'⟩
      rw [← h.mem_notes_iff] at hgone
      have hapart := hagree.apart key hkey hgone _ hother
      rcases NoteItem.mem_partIds_cases hpart' hpart with heq | heq | heq
      · exact hgone (heq ▸ hother)
      · exact hapart.1 heq
      · exact hapart.2 heq
    obtain ⟨p, hp⟩ := NoteItem.exists_put_of_mem_partIds
      ((t.withMessages d).placedNote d.messages.length x.1 x.2.1 x.2.2) hpart
    rw [render_found_put h.tidy' h.covered' hx hp hfresh]
    rw [NoteItem.marks_congr (h.rect_eq hempty hagree hx).symm rfl] at hp
    rw [h.presentNotes_eq] at hx
    exact (render_found_put h.tidy h.covered hx hp hkept).symm
  · -- no part of a note of the diagram: what may have been there is stale
    have hmem (u : TimelineStage α) : name ∉ Mark.ids
        ((presentNotes (t.placeParticipants d).picture d).flatMap
          ((notePhase d.messages.length).marks u)) := fun hmem =>
      hitem ((notePhase d.messages.length).mem_ids_flatMap.mp hmem)
    rw [render_found_note h.tidy' h.covered' hname hfresh, Mark.effect_of_not_mem (hmem _)]
    by_cases hstale : (notePhase d.messages.length).Stale (s.withMessages d)
        (presentNotes (s.placeParticipants d).picture d) name
    · rw [render_found_of_stale h.tidy h.covered hstale]
    · rw [render_found_note h.tidy h.covered hname hstale, ← h.presentNotes_eq,
        Mark.effect_of_not_mem (hmem _)]

/-- If the primitives are the same, no part of a note of the diagram was erased
    as stale: drawn afresh, it is there. -/
theorem not_stale_of_render_eq (h : Comparable d s t) (hempty : t.picture.notes = ∅)
    (heq : (s.render d).state.surface.primitives = (t.render d).state.surface.primitives)
    {key name : String} (hkey : key ∈ (t.rendered d).notes) (hpart : name ∈ NoteItem.partIds key) :
    ¬(notePhase d.messages.length).Stale (s.withMessages d)
      (presentNotes (s.placeParticipants d).picture d) name := by
  intro hstale
  obtain ⟨x, hx, rfl⟩ := (mem_rendered_notes h.tidy'.accepts).mp hkey
  obtain ⟨p, hp⟩ := NoteItem.exists_put_of_mem_partIds
    ((t.withMessages d).placedNote d.messages.length x.1 x.2.1 x.2.2) hpart
  have hfound := render_found_put h.tidy' h.covered' hx hp (h.not_stale_of_empty hempty name)
  rw [← heq, render_found_of_stale h.tidy h.covered hstale] at hfound
  cases hfound

/-- If the primitives are the same, the notes agree. Otherwise a label would be
    missing or a box would have another place. -/
theorem notesAgree_of_render_eq (h : Comparable d s t) (hempty : t.picture.notes = ∅)
    (heq : (s.render d).state.surface.primitives = (t.render d).state.surface.primitives) :
    Timeline.NotesAgree t.measure s.picture (t.rendered d) where
  apart key hkey hgone other hother := by
    rw [h.mem_notes_iff] at hgone
    have hkept (name : String) (hpart : name ∈ NoteItem.partIds other)
        (hpart' : name ∈ NoteItem.partIds key) : False :=
      h.not_stale_of_render_eq hempty heq hother hpart
        ((stale_iff h.tidy.accepts).mpr ⟨key, hkey, hgone, hpart'⟩)
    constructor
    · rintro rfl
      refine hkept (Part.noteLabel other).id (by simp [NoteItem.partIds]) ?_
      simp [NoteItem.partIds, Part.id, String.append_assoc]
    · rintro rfl
      refine hkept (Part.noteLabel key).id ?_ (by simp [NoteItem.partIds])
      simp [NoteItem.partIds, Part.id, String.append_assoc]
  boxes key n n' hn hn' := by
    have hkey := Std.ExtTreeMap.mem_iff_isSome_getElem?.mpr (Option.isSome_of_eq_some hn')
    obtain ⟨x, hx, rfl⟩ := (mem_rendered_notes h.tidy'.accepts).mp hkey
    have hx' := hx
    rw [h.presentNotes_eq] at hx'
    have hkept := h.not_stale_of_render_eq hempty heq hkey List.mem_cons_self
    have hfound := render_found_put h.tidy h.covered hx' List.mem_cons_self hkept
    have hfound' := render_found_put h.tidy' h.covered' hx List.mem_cons_self
      (h.not_stale_of_empty hempty _)
    rw [heq, hfound', Option.some.injEq, Primitive.mk.injEq, Shape.roundedRect.injEq,
      placedNote_withMessages h.tidy.accepts, placedNote_withMessages h.tidy'.accepts,
      ← h.noteBox_eq, ← h.measure] at hfound
    rw [rendered_notes_getElem? h.tidy'.accepts hx, placedNote_withMessages h.tidy'.accepts,
      Option.some.injEq] at hn'
    have hids : placedIds s.picture x.1 x.2.1 x.2.2 = n.note.participants := by
      rw [placedIds, hn]
    rw [← hn', ← hids]
    exact hfound.1.1.symm

/-- Rendering leaves the same primitives as rendering where there are no notes
    yet just when the notes agree. The body of a note has an id without an
    ending, so this can be the id of the label of another note, and stale notes
    are erased last. -/
theorem render_eq_iff (h : Comparable d s t) (hempty : t.picture.notes = ∅) :
    (s.render d).state.surface.primitives = (t.render d).state.surface.primitives ↔
      Timeline.NotesAgree t.measure s.picture (t.rendered d) := by
  refine ⟨h.notesAgree_of_render_eq hempty, fun hagree => ?_⟩
  apply Std.ExtTreeMap.ext_getElem?
  intro name
  by_cases hname : name.toList.head? = some 'n'
  · exact (h.render_found_of_notesAgree hempty hagree hname).symm
  · exact (h.render_found_of_head hname).symm

end Comparable

end TimelineStage

end LiveDiagram
