import LiveDiagram.Proofs.Chart.Scene
import LiveDiagram.Proofs.Timeline.Found

namespace LiveDiagram

variable {α : Type} [Scalar α]

theorem ParticipantItem.marks_bare (id : String) (p : ParticipantItem α) : p.bare.marks id = p.marks id :=
  rfl

/-- The surface shows every participant of the timeline as it stands. No
    participant has a colon in its id, so no two of them share a part. -/
structure Timeline.ShownOn (t : Timeline α) (surface : Surface α) : Prop where
  colonFree : ∀ id ∈ t.participants, ColonFree id
  shown : ∀ (id : String) (p : ParticipantItem α), t.bare? id = some p → surface.Shows (p.marks id)

namespace Timeline.ShownOn

variable {t u : Timeline α} {surface : Surface α}

theorem empty (surface : Surface α) : (Timeline.empty : Timeline α).ShownOn surface where
  colonFree id hid := by simp [Timeline.empty] at hid
  shown id p hp := by simp [Timeline.empty, bare?] at hp

/-- The same participants are shown by a surface with the same under all ids of
    parts of participants. -/
theorem congr (h : t.ShownOn surface) {surface' : Surface α} (hbare : ∀ id, u.bare? id = t.bare? id)
    (hfound : ∀ name : String, name.toList.head? = some 'p' →
      surface'.primitives[name]? = surface.primitives[name]?) : u.ShownOn surface' where
  colonFree id hid := h.colonFree id ((mem_participants_congr (hbare id)).mp hid)
  shown id p hp := by
    rw [hbare] at hp
    exact (h.shown id p hp).congr fun name hname => hfound name (ParticipantItem.head?_of_mem_partIds hname)

/-- Participants stay shown under marks with ids that are not those of parts of
    participants. -/
theorem draw (h : t.ShownOn surface) {marks : List (Mark α)}
    (hmarks : ∀ name ∈ Mark.ids marks, name.toList.head? ≠ some 'p') : t.ShownOn (surface.draw marks).1 :=
  h.congr (fun _ => rfl) fun name hname =>
    Surface.draw_getElem?_of_not_mem fun hmem => hmarks name hmem hname

/-- A participant that is put on the timeline and drawn. The others stay what
    they were and share no id with it. -/
theorem setParticipant (h : t.ShownOn surface) (haccepts : surface.Accepts) {id : String} (hid : ColonFree id)
    (p : ParticipantItem α) : (t.setParticipant id p).ShownOn (surface.draw (p.marks id)).1 where
  colonFree other hother := by
    rw [mem_participants_iff, setParticipant_bare?] at hother
    split at hother
    · rename_i heq
      exact heq ▸ hid
    · exact h.colonFree other (mem_participants_iff.mpr hother)
  shown other q hq := by
    rw [setParticipant_bare?] at hq
    split at hq
    · rename_i heq
      subst heq
      rw [← Option.some.inj hq, ParticipantItem.marks_bare]
      refine haccepts.shows_draw ?_
      rw [ParticipantItem.ids_marks]
      exact ParticipantItem.nodup_partIds id
    · rename_i hne
      have hother : ColonFree other := h.colonFree other (mem_participants_iff.mpr (Option.isSome_of_eq_some hq))
      refine (h.shown other q hq).congr fun name hname => Surface.draw_getElem?_of_not_mem fun hmem => ?_
      rw [ParticipantItem.ids_marks] at hname hmem
      exact hne (ParticipantItem.eq_of_mem_partIds hid hother hmem hname)

end Timeline.ShownOn

namespace TimelineStage

/-- The surface refuses nothing and shows every participant of the timeline as
    it stands, and the timeline knows the order of its participants. -/
structure Shown (s : TimelineStage α) : Prop where
  accepts : s.surface.Accepts
  ordered : ∀ id ∈ s.picture.participants, id ∈ s.picture.order
  participants : s.picture.ShownOn s.surface

theorem shown_empty {s : TimelineStage α} (haccepts : s.surface.Accepts) (hpicture : s.picture = .empty) :
    s.Shown where
  accepts := haccepts
  ordered id hid := by simp [hpicture, Timeline.empty] at hid
  participants := hpicture ▸ .empty s.surface

namespace Shown

variable {s : TimelineStage α}

theorem congr (h : s.Shown) {t : TimelineStage α} (hpicture : t.picture = s.picture)
    (hsurface : t.surface = s.surface) :
    t.Shown where
  accepts := hsurface ▸ h.accepts
  ordered := hpicture ▸ h.ordered
  participants := hpicture ▸ hsurface ▸ h.participants

theorem draw (h : s.Shown) (marks : List (Mark α))
    (hmarks : ∀ name ∈ Mark.ids marks, name.toList.head? ≠ some 'p') : Shown (Stage.draw s marks).state where
  accepts := (s.surface.draw_refused marks).trans h.accepts
  ordered := h.ordered
  participants := h.participants.draw hmarks

theorem drawMessage (h : s.Shown) (key : String) : (s.drawMessage key).state.Shown := by
  unfold TimelineStage.drawMessage
  split
  · refine h.draw _ fun name hname => ?_
    rw [MessageItem.ids_marks] at hname
    rw [MessageItem.head?_of_mem_partIds hname]
    decide
  · exact h

/-- Drawing a note leaves the participants shown; its new box is not that of a
    participant. -/
theorem drawNote (h : s.Shown) (key : String) : (s.drawNote key).state.Shown := by
  unfold TimelineStage.drawNote
  split
  · refine draw ?_ _ fun name hname => ?_
    · exact ⟨h.accepts, h.ordered, h.participants.congr (fun _ => rfl) fun _ _ => rfl⟩
    · rw [NoteItem.ids_marks] at hname
      rw [NoteItem.head?_of_mem_partIds hname]
      decide
  · exact h

theorem drawTitle (h : s.Shown) : s.drawTitle.state.Shown := by
  refine h.draw _ fun name hname => ?_
  rw [Timeline.ids_titleMarks, List.mem_singleton] at hname
  rw [hname]
  decide

/-- Drawing what depends on a participant leaves the participants shown. -/
theorem updateDependents (h : s.Shown) (id : String) : (s.updateDependents id).state.Shown := by
  unfold TimelineStage.updateDependents
  split
  · exact h
  · refine Outcome.andThen_state (Outcome.andThen_state ?_ fun t ht => ?_) fun t ht => ht.drawTitle
    · exact Outcome.forEach_state (P := Shown) (fun key _ _ ht => ht.drawMessage key) h
    · exact Outcome.forEach_state (P := Shown) (fun key _ _ hu => hu.drawNote key) ht

/-- A participant that moves is drawn in its new place, and the others stay
    shown. -/
theorem moveParticipant (h : s.Shown) (id : String) (x : α) : (s.moveParticipant id x).state.Shown := by
  unfold TimelineStage.moveParticipant
  split
  · exact h
  · rename_i p hp
    have hid : id ∈ s.picture.participants :=
      Std.ExtTreeMap.mem_iff_isSome_getElem?.mpr (Option.isSome_of_eq_some hp)
    let t : TimelineStage α := s.set (s.picture.setParticipant id { p with x })
    have hdraw : t.drawParticipant id = Stage.draw t (ParticipantItem.marks id { p with x }) :=
      drawParticipant_of_setParticipant rfl
    refine Outcome.andThen_state ?_ fun u hu => hu.updateDependents id
    rw [hdraw]
    refine ⟨((Stage.SameSetup.refl t).draw _).accepts h.accepts, fun other hother => ?_,
      h.participants.setParticipant h.accepts (h.participants.colonFree id hid) { p with x }⟩
    rcases Std.ExtTreeMap.mem_insert.mp hother with heq | hbefore
    · exact Std.LawfulEqCmp.eq_of_compare heq ▸ h.ordered id hid
    · exact h.ordered other hbefore

theorem edit (h : s.Shown) (e : TimelineEdit α) : (s.edit e).state.Shown := by
  cases e with
  | moveParticipant id x => exact h.moveParticipant id x
  | commitParticipant id =>
    unfold TimelineStage.edit TimelineStage.commitParticipant
    dsimp only [Outcome.done_state]
    split
    · exact h
    · exact h.congr rfl rfl

end Shown

section Render

variable {s : TimelineStage α} {d : Sequence}

/-- Participants that are placed one after the other are shown where they are
    placed. The induction is on those that are placed. -/
theorem placeParticipants_shownOn (haccepts : s.surface.Accepts) (h : s.picture.ShownOn s.surface)
    (hd : ∀ id ∈ d.participantIds, ColonFree id) :
    (s.placeParticipants d).picture.ShownOn (s.placeParticipants d).surface := by
  refine (List.foldlRecOn (motive := fun t : TimelineStage α => t.surface.Accepts ∧ t.picture.ShownOn t.surface)
    d.participants.zipIdx _ ⟨haccepts, h⟩ fun t ht x hx => ?_).2
  have hid : ColonFree x.1.id := hd _ (List.mem_map_of_mem (List.fst_mem_of_mem_zipIdx hx))
  refine ⟨(t.placeParticipant_sameSetup _ x.1 x.2).accepts ht.1, ?_⟩
  dsimp only
  rw [placeParticipant_eq]
  exact ht.2.setParticipant ht.1 hid _

/-- Rendering a diagram with all participants of the timeline leaves every
    participant shown. -/
theorem Shown.render (h : s.Shown) (hcovered : s.CoveredBy d) (hd : ∀ id ∈ d.participantIds, ColonFree id) :
    (s.render d).state.Shown := by
  obtain ⟨hpicture, -⟩ := render_scene h.accepts hcovered
  refine ⟨(s.render_sameSetup d).accepts h.accepts, fun id hid => ?_, ?_⟩
  · rw [hpicture] at hid ⊢
    exact (mem_rendered_participants h.accepts hcovered).mp hid
  · refine (placeParticipants_shownOn h.accepts h.participants hd).congr (fun id => ?_) fun name hname => ?_
    · rw [hpicture]
      exact (withNotes_frame h.accepts d).bare id
    · rw [render_found_of_ne_title h.accepts hcovered (ne_title_of_head? hname (by decide)),
        withNotes_found_of_head h.accepts (by simp [hname]), withMessages_found_of_head h.accepts (by simp [hname])]

end Render

end TimelineStage

end LiveDiagram
