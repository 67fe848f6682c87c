import LiveDiagram.Proofs.Timeline.Found
import LiveDiagram.Proofs.Timeline.Operations

namespace LiveDiagram

variable {α : Type} [Scalar α]

/-- A participant that is not among the given ones may move without changing
    what those span. -/
theorem Timeline.extentOf_setParticipant {t : Timeline α} {id : String} {ids : List String} (hid : id ∉ ids)
    (p : ParticipantItem α) : (t.setParticipant id p).extentOf ids = t.extentOf ids := by
  have hfound (other : String) (hother : other ∈ ids) :
      (t.setParticipant id p).participants[other]?.map ParticipantItem.center =
        t.participants[other]?.map ParticipantItem.center := by
    have hne : id ≠ other := fun heq => hid (heq ▸ hother)
    unfold Timeline.setParticipant
    grind
  unfold extentOf
  rw [List.filterMap_congr hfound]

/-- A participant that moves leaves the lifelines of the others where they
    are. -/
theorem Timeline.centerOf_setParticipant {t : Timeline α} {id other : String} (hne : id ≠ other)
    (p : ParticipantItem α) : (t.setParticipant id p).centerOf other = t.centerOf other := by
  rw [centerOf_eq_bare?, setParticipant_bare?, if_neg hne, ← centerOf_eq_bare?]

/-- No two parts of a message have the same id, so all its marks are shown once
    it is drawn. -/
theorem MessageItem.nodup_ids_marks (measure : Measure α) (key : String) (m : MessageItem α) (x1 x2 : α) :
    (Mark.ids (m.marks measure key x1 x2)).Nodup := by
  rw [ids_marks, partIds_eq]
  exact partNames_nodup (by decide)

namespace TimelineStage

/-- The marks that draw a message where its ends are now. -/
def currentMarks (s : TimelineStage α) (key : String) (m : MessageItem α) : List (Mark α) :=
  m.marks s.measure key (s.picture.centerOf m.message.source) (s.picture.centerOf m.message.target)

/-- The box that fits a note where its participants are now. -/
def currentBox (s : TimelineStage α) (n : NoteItem α) : Rect α :=
  s.picture.noteBox n.note.participants n.y (s.measure n.note.text).height

/-- A note that is drawn gets the box that fits it. -/
theorem drawNote_of_getElem? {s : TimelineStage α} {key : String} {n : NoteItem α}
    (hn : s.picture.notes[key]? = some n) :
    s.drawNote key =
      Stage.draw (s.set { s.picture with notes := s.picture.notes.insert key { n with rect := s.currentBox n } })
        (NoteItem.marks key { n with rect := s.currentBox n }) := by
  unfold drawNote
  rw [hn]
  rfl

/-- The surface refuses nothing. All messages but those that are pending are
    drawn where their ends are, and all notes but those that are pending fit
    their participants. A participant that moves has the messages and notes that
    it lists drawn anew, one after the other; those that are still to be drawn
    are pending. -/
structure Pending (messages notes : List String) (s : TimelineStage α) : Prop where
  accepts : s.surface.Accepts
  message : ∀ {key : String} {m : MessageItem α}, s.picture.messages[key]? = some m → key ∉ messages →
    s.surface.Shows (s.currentMarks key m)
  note : ∀ {key : String} {n : NoteItem α}, s.picture.notes[key]? = some n → key ∉ notes →
    n.rect = s.currentBox n

/-- Everything follows the participants: messages, notes and the title. -/
structure Following (s : TimelineStage α) : Prop extends Pending [] [] s where
  title : s.surface.Shows (s.picture.titleMarks s.measure)

namespace Pending

variable {s : TimelineStage α} {key : String} {messages notes : List String}

/-- Marks under ids that are not those of parts of messages leave the messages
    as they are drawn. -/
theorem draw (h : Pending messages notes s) {marks : List (Mark α)}
    (hmarks : ∀ name ∈ Mark.ids marks, name.toList.head? ≠ some 'm') :
    Pending messages notes (Stage.draw s marks).state where
  accepts := (s.surface.draw_refused marks).trans h.accepts
  message hm hkey := by
    refine (h.message hm hkey).congr fun name hname => Surface.draw_getElem?_of_not_mem fun hmark => ?_
    rw [currentMarks, MessageItem.ids_marks] at hname
    exact hmarks name hmark (MessageItem.head?_of_mem_partIds hname)
  note := h.note

/-- Drawing a pending message takes it off, and nothing stops it. -/
theorem drawMessage (h : Pending (key :: messages) notes s) :
    (s.drawMessage key).refusal = none ∧ Pending messages notes (s.drawMessage key).state := by
  unfold TimelineStage.drawMessage
  split
  · rename_i m hm
    have hsurface : (s.draw (s.currentMarks key m)).state.surface = (s.surface.draw (s.currentMarks key m)).1 :=
      rfl
    refine ⟨h.accepts.draw_refusal (s.currentMarks key m), ?_, fun {other m'} hm' hother => ?_, h.note⟩
    · exact (s.surface.draw_refused (s.currentMarks key m)).trans h.accepts
    · change (s.draw (s.currentMarks key m)).state.surface.Shows (s.currentMarks other m')
      rw [hsurface]
      by_cases heq : other = key
      · subst heq
        cases hm.symm.trans hm'
        exact h.accepts.shows_draw (MessageItem.nodup_ids_marks _ _ _ _ _)
      · have hpending : other ∉ key :: messages := fun hmem => (List.mem_cons.mp hmem).elim heq hother
        refine (h.message hm' hpending).congr fun name hname => Surface.draw_getElem?_of_not_mem fun hmark => ?_
        rw [currentMarks, MessageItem.ids_marks] at hmark hname
        exact heq (MessageItem.eq_of_mem_partIds hname hmark)
  · rename_i hnone
    refine ⟨rfl, h.accepts, fun {other m'} hm' hother => h.message hm' fun hmem => ?_, h.note⟩
    rcases List.mem_cons.mp hmem with rfl | hmem
    · exact Option.some_ne_none m' (hm'.symm.trans hnone)
    · exact hother hmem

/-- Drawing a pending note takes it off, and nothing stops it. Its box is
    changed and nothing else that a message or another note would follow. -/
theorem drawNote (h : Pending messages (key :: notes) s) :
    (s.drawNote key).refusal = none ∧ Pending messages notes (s.drawNote key).state := by
  cases hn : s.picture.notes[key]? with
  | some n =>
    rw [drawNote_of_getElem? hn]
    refine ⟨h.accepts.draw_refusal (NoteItem.marks key { n with rect := s.currentBox n }), Pending.draw ?_
      fun name hname => ?_⟩
    · refine ⟨h.accepts, h.message, fun {other n'} hn' hother => ?_⟩
      change (s.picture.notes.insert key { n with rect := s.currentBox n })[other]? = some n' at hn'
      by_cases heq : other = key
      · subst heq
        rw [Std.ExtTreeMap.getElem?_insert_self, Option.some.injEq] at hn'
        rw [← hn']
        rfl
      · have hbefore : s.picture.notes[other]? = some n' := by grind
        exact h.note hbefore fun hmem => (List.mem_cons.mp hmem).elim heq hother
    · rw [NoteItem.ids_marks] at hname
      rw [NoteItem.head?_of_mem_partIds hname]
      decide
  | none =>
    have hsame : s.drawNote key = .done s := by
      unfold TimelineStage.drawNote
      rw [hn]
    rw [hsame]
    refine ⟨rfl, h.accepts, h.message, fun {other n'} hn' hother => h.note hn' fun hmem => ?_⟩
    rcases List.mem_cons.mp hmem with rfl | hmem
    · exact Option.some_ne_none n' (hn'.symm.trans hn)
    · exact hother hmem

/-- Drawing the title shows it where it belongs and takes nothing off. -/
theorem drawTitle (h : Pending messages notes s) :
    Pending messages notes s.drawTitle.state ∧
      s.drawTitle.state.surface.Shows (s.drawTitle.state.picture.titleMarks s.drawTitle.state.measure) := by
  constructor
  · refine h.draw fun name hname => ?_
    rw [Timeline.ids_titleMarks, List.mem_singleton] at hname
    rw [hname]
    decide
  · refine h.accepts.shows_draw ?_
    rw [Timeline.ids_titleMarks]
    exact List.nodup_singleton _

/-- Once all that a participant lists is drawn anew, and the title, everything
    follows the participants. -/
theorem updateDependents {id : String} {p : ParticipantItem α} (hp : s.picture.participants[id]? = some p)
    (h : Pending p.messageKeys p.noteKeys s) : (s.updateDependents id).state.Following := by
  have hmessages := Outcome.forEach_pending (P := fun messages => Pending messages p.noteKeys)
    (f := fun key s => TimelineStage.drawMessage s key) (fun key keys s hs => hs.drawMessage) h
  have hnotes := Outcome.forEach_pending (P := Pending [])
    (f := fun key s => TimelineStage.drawNote s key) (fun key keys s hs => hs.drawNote) hmessages.2
  obtain ⟨hpending, htitle⟩ := hnotes.2.drawTitle
  unfold TimelineStage.updateDependents
  rw [hp]
  dsimp only
  rw [Outcome.andThen_of_refusal_eq_none hmessages.1, Outcome.andThen_of_refusal_eq_none hnotes.1]
  exact ⟨hpending, htitle⟩

end Pending

namespace Following

variable {s : TimelineStage α}

/-- The messages and notes that a moved participant does not list have nothing
    to do with it, if the timeline is linked. So only those that it lists are
    pending. -/
theorem pending_setParticipant (h : s.Following) (hlinked : s.picture.Linked) {id : String}
    {p : ParticipantItem α} (hp : s.picture.participants[id]? = some p) (x : α) :
    Pending p.messageKeys p.noteKeys (s.set (s.picture.setParticipant id { p with x })) := by
  have hlists := hlinked.consistent
  refine ⟨h.accepts, fun {key m} hm hkey => ?_, fun {key n} hn hkey => ?_⟩
  · have hends : ¬ m.message.EndsAt id := fun hat => hkey ((hlists.mem_messageKeys hp key).mpr ⟨m, hm, hat⟩)
    have hmarks : currentMarks (s.set (s.picture.setParticipant id { p with x })) key m =
        s.currentMarks key m := by
      unfold currentMarks set
      dsimp only
      rw [Timeline.centerOf_setParticipant fun heq => hends (.inl heq.symm),
        Timeline.centerOf_setParticipant fun heq => hends (.inr heq.symm)]
    rw [hmarks]
    exact h.message hm List.not_mem_nil
  · have hover : id ∉ n.note.participants := fun hat => hkey ((hlists.mem_noteKeys hp key).mpr ⟨n, hn, hat⟩)
    have hbox : currentBox (s.set (s.picture.setParticipant id { p with x })) n = s.currentBox n := by
      unfold currentBox set Timeline.noteBox
      dsimp only
      rw [Timeline.extentOf_setParticipant hover]
    rw [hbox]
    exact h.note hn List.not_mem_nil

/-- A participant that moves takes along all that follows it. One that is not
    there moves nothing. -/
theorem moveParticipant (h : s.Following) (hlinked : s.picture.Linked) (id : String) (x : α) :
    (s.moveParticipant id x).state.Following := by
  unfold TimelineStage.moveParticipant
  split
  · exact h
  · rename_i p hp
    let t := s.set (s.picture.setParticipant id { p with x })
    have hpending : Pending p.messageKeys p.noteKeys t := h.pending_setParticipant hlinked hp x
    have hdraw : t.drawParticipant id = t.draw (ParticipantItem.marks id { p with x }) :=
      drawParticipant_of_setParticipant rfl
    have hdrawn : Pending p.messageKeys p.noteKeys (t.drawParticipant id).state := by
      rw [hdraw]
      refine hpending.draw fun name hname => ?_
      rw [ParticipantItem.ids_marks] at hname
      rw [ParticipantItem.head?_of_mem_partIds hname]
      decide
    have hrefusal : (t.drawParticipant id).refusal = none := by
      rw [hdraw]
      exact hpending.accepts.draw_refusal (ParticipantItem.marks id { p with x })
    have hthere : (t.drawParticipant id).state.picture.participants[id]? = some { p with x } := by
      rw [hdraw]
      exact Std.ExtTreeMap.getElem?_insert_self
    rw [Outcome.andThen_of_refusal_eq_none hrefusal]
    exact hdrawn.updateDependents hthere

theorem commitParticipant (h : s.Following) (id : String) : (s.commitParticipant id).Following := by
  unfold TimelineStage.commitParticipant
  split
  · exact h
  · exact ⟨⟨h.accepts, h.message, h.note⟩, h.title⟩

theorem edit (h : s.Following) (hlinked : s.picture.Linked) (e : TimelineEdit α) :
    (s.edit e).state.Following := by
  cases e with
  | moveParticipant id x => exact h.moveParticipant hlinked id x
  | commitParticipant id => exact h.commitParticipant id

end Following

section Render

variable {s : TimelineStage α} {d : Sequence}

/-- No two marks of the messages of a diagram have the same id: within a message
    the endings differ, and between messages the keys do, since they have
    different indices. -/
theorem nodup_messageMarks (s t : TimelineStage α) (d : Sequence) :
    (Mark.ids ((presentMessages s.picture d).flatMap (messagePhase.marks t))).Nodup := by
  rw [List.flatMap, Mark.ids_flatten, List.map_map, List.nodup_flatten]
  constructor
  · intro ids hids
    obtain ⟨x, _, rfl⟩ := List.mem_map.mp hids
    exact MessageItem.nodup_ids_marks _ _ _ _ _
  · refine List.pairwise_map.mpr ((List.pairwise_map.mp (nodup_messageKeys s.picture d)).imp fun hne => ?_)
    intro name hname hname'
    rw [Function.comp_apply, messagePhase.ids_marks] at hname hname'
    exact hne (MessageItem.eq_of_mem_partIds hname hname')

/-- A message of the diagram is rendered as the diagram states it, at the height
    that its index gives it. A key without bars in the ids of the ends leaves no
    doubt which message it is. -/
theorem exists_presentMessage (hs : s.Tidy) (hbar : ∀ m ∈ d.messages, m.BarFree) {key : String}
    {m : MessageItem α} (hm : (s.rendered d).messages[key]? = some m) :
    ∃ x ∈ presentMessages (s.placeParticipants d).picture d, x.1.key x.2 = key ∧
      m = ⟨x.1, Layout.messageY x.2⟩ := by
  have hran := withMessages_ran hs.accepts d
  rw [rendered_messages] at hm
  obtain ⟨x, hx, rfl⟩ := List.mem_map.mp (hran.isSome_lookup_iff.mp (Option.isSome_of_eq_some hm))
  have hplaced : some m = some (placedMessage (s.placeParticipants d).picture x.1 x.2) :=
    hm.symm.trans (hran.lookup_of_mem x hx)
  rw [placedMessage_of_keyed (keyed_placeParticipants hs) (hbar x.1 (mem_of_mem_presentMessages hx)),
    Option.some.injEq] at hplaced
  exact ⟨x, hx, rfl, hplaced⟩

/-- After a rendering every message is drawn where its ends are, each part of
    it. -/
theorem shows_render_message (hs : s.Tidy) (hcovered : s.CoveredBy d) (hbar : ∀ m ∈ d.messages, m.BarFree)
    {key : String} {m : MessageItem α} (hm : (s.rendered d).messages[key]? = some m) :
    (s.render d).state.surface.Shows (m.marks s.measure key ((s.rendered d).centerOf m.message.source)
      ((s.rendered d).centerOf m.message.target)) := by
  obtain ⟨x, hx, rfl, rfl⟩ := exists_presentMessage hs hbar hm
  have hspec := hbar x.1 (mem_of_mem_presentMessages hx)
  have hcenter : (s.rendered d).centerOf = (s.placeParticipants d).picture.centerOf :=
    Timeline.centerOf_congr (withNotes_frame hs.accepts d).bare
  have hmarks : messagePhase.marks (s.placeParticipants d) x =
      MessageItem.marks s.measure (x.1.key x.2) ⟨x.1, Layout.messageY x.2⟩
        ((s.rendered d).centerOf x.1.source) ((s.rendered d).centerOf x.1.target) := by
    change messageMarks _ x.1 x.2 = _
    unfold messageMarks
    rw [placedMessage_of_keyed (keyed_placeParticipants hs) hspec, hcenter,
      (s.placeParticipants_sameSetup d).measure]
  intro mark hmark
  rw [← hmarks] at hmark
  have hname := Mark.mem_ids hmark
  rw [messagePhase.ids_marks] at hname
  rw [render_found_message hs hcovered (MessageItem.head?_of_mem_partIds hname)]
  exact Mark.effect_of_nodup (nodup_messageMarks _ _ d) (List.mem_flatMap_of_mem hx hmark) none

/-- After a rendering everything follows the participants, whatever the timeline
    was before. -/
theorem following_render (hs : s.Tidy) (hcovered : s.CoveredBy d) (hbar : ∀ m ∈ d.messages, m.BarFree) :
    (s.render d).state.Following := by
  have hsetup := s.render_sameSetup d
  have hpicture := (render_scene hs.accepts hcovered).1
  refine ⟨⟨hsetup.accepts hs.accepts, fun {key m} hm _ => ?_, fun {key n} hn _ => ?_⟩, fun mark hmark => ?_⟩
  · unfold currentMarks
    rw [hpicture] at hm ⊢
    rw [hsetup.measure]
    exact shows_render_message hs hcovered hbar hm
  · unfold currentBox
    rw [hpicture] at hn ⊢
    obtain ⟨x, hx, rfl⟩ := (mem_rendered_notes hs.accepts).mp
      (Std.ExtTreeMap.mem_iff_isSome_getElem?.mpr (Option.isSome_of_eq_some hn))
    rw [rendered_notes_getElem? hs.accepts hx, placedNote_withMessages hs.accepts, Option.some.injEq] at hn
    rw [← hn, hsetup.measure]
  · rw [hpicture, hsetup.measure] at hmark
    rw [render_found hs.accepts hcovered]
    refine Mark.effect_of_nodup ?_ hmark _
    rw [Timeline.ids_titleMarks]
    exact List.nodup_singleton _

end Render

end TimelineStage

/-- Every message and every note is one of the diagram, over some participants,
    at the height that its index gives it. The title is that of the diagram. So
    messages and notes stand in rows from top to bottom, in the order of the
    diagram that was rendered last and messages first. -/
structure Timeline.Rows (t : Timeline α) (d : Sequence) : Prop where
  message : ∀ {key : String} {m : MessageItem α}, t.messages[key]? = some m →
    ∃ index, d.messages[index]? = some m.message ∧ m.message.key index = key ∧ m.y = Layout.messageY index
  note : ∀ {key : String} {n : NoteItem α}, t.notes[key]? = some n →
    ∃ (spec : Note) (index : Nat), d.notes[index]? = some spec ∧ spec.key index = key ∧
      n.note.text = spec.text ∧ n.note.participants ≠ [] ∧ n.y = Layout.noteY d.messages.length index
  title : t.title = d.title

namespace Timeline.Rows

variable {t u : Timeline α} {d : Sequence}

/-- Nothing but participants and boxes may differ. -/
theorem congr (h : t.Rows d) (hmessages : u.messages = t.messages)
    (hnotes : ∀ {key : String} {n : NoteItem α}, u.notes[key]? = some n →
      ∃ n', t.notes[key]? = some n' ∧ n.note = n'.note ∧ n.y = n'.y)
    (htitle : u.title = t.title) : u.Rows d where
  message hm := h.message (hmessages ▸ hm)
  note hn := by
    obtain ⟨n', hn', hnote, hy⟩ := hnotes hn
    rw [hnote, hy]
    exact h.note hn'
  title := htitle.trans h.title

end Timeline.Rows

namespace TimelineStage

variable {s : TimelineStage α} {d : Sequence}

/-- Fitting the box of a note leaves the notes in their rows. -/
theorem rows_drawNote (h : s.picture.Rows d) (key : String) : (s.drawNote key).state.picture.Rows d := by
  cases hn : s.picture.notes[key]? with
  | none =>
    unfold drawNote
    rw [hn]
    exact h
  | some n =>
    rw [drawNote_of_getElem? hn]
    refine h.congr rfl (fun {other n'} hn' => ?_) rfl
    change (s.picture.notes.insert key { n with rect := s.currentBox n })[other]? = some n' at hn'
    by_cases heq : other = key
    · subst heq
      rw [Std.ExtTreeMap.getElem?_insert_self, Option.some.injEq] at hn'
      exact ⟨n, hn, hn' ▸ ⟨rfl, rfl⟩⟩
    · exact ⟨n', by grind, rfl, rfl⟩

/-- Drawing what depends on a participant leaves messages and notes in their
    rows. -/
theorem rows_updateDependents (h : s.picture.Rows d) (id : String) :
    (s.updateDependents id).state.picture.Rows d := by
  unfold updateDependents
  split
  · exact h
  · refine Outcome.andThen_state (P := fun t : TimelineStage α => t.picture.Rows d) ?_ fun t ht => ht
    refine Outcome.andThen_state (P := fun t : TimelineStage α => t.picture.Rows d) ?_ fun t ht => ?_
    · refine Outcome.forEach_state (P := fun t : TimelineStage α => t.picture.Rows d) (fun key _ t ht => ?_) h
      unfold drawMessage
      split <;> exact ht
    · exact Outcome.forEach_state (P := fun t : TimelineStage α => t.picture.Rows d)
        (fun key _ t ht => rows_drawNote ht key) ht

/-- An edit leaves messages and notes in their rows, since edits move things
    sideways only. -/
theorem rows_edit (h : s.picture.Rows d) (e : TimelineEdit α) : (s.edit e).state.picture.Rows d := by
  cases e with
  | moveParticipant id x =>
    unfold edit moveParticipant
    dsimp only
    split
    · exact h
    · rename_i p _
      refine Outcome.andThen_state (P := fun t : TimelineStage α => t.picture.Rows d) ?_
        fun t ht => rows_updateDependents ht id
      have hmoved : (s.picture.setParticipant id { p with x }).Rows d :=
        h.congr rfl (fun {_ n} hn => ⟨n, hn, rfl, rfl⟩) rfl
      unfold drawParticipant
      split <;> exact hmoved
  | commitParticipant id =>
    unfold edit commitParticipant
    dsimp only [Outcome.done]
    split <;> exact h

/-- A rendering puts messages and notes in their rows. Notes that are there
    already must be over some participant, since they keep their
    participants. -/
theorem rows_rendered (hs : s.Tidy) (hbar : ∀ m ∈ d.messages, m.BarFree)
    (hover : ∀ {key : String} {n : NoteItem α}, s.picture.notes[key]? = some n → n.note.participants ≠ []) :
    (s.rendered d).Rows d where
  message hm := by
    obtain ⟨x, hx, rfl, rfl⟩ := exists_presentMessage hs hbar hm
    refine ⟨x.2, ?_, rfl, rfl⟩
    exact List.mem_zipIdx_iff_getElem?.mp (mem_presentMessages.mp hx).1
  note {key n} hn := by
    obtain ⟨x, hx, rfl⟩ := (mem_rendered_notes hs.accepts).mp
      (Std.ExtTreeMap.mem_iff_isSome_getElem?.mpr (Option.isSome_of_eq_some hn))
    rw [rendered_notes_getElem? hs.accepts hx, placedNote_withMessages hs.accepts, Option.some.injEq] at hn
    obtain ⟨hstated, hpresent⟩ := List.mem_filter.mp hx
    obtain ⟨y, hy, rfl⟩ := List.mem_map.mp hstated
    refine ⟨y.1, y.2, List.mem_zipIdx_iff_getElem?.mp hy, rfl, hn ▸ rfl, ?_, hn ▸ rfl⟩
    rw [← hn]
    dsimp only [placedIds]
    cases hbefore : s.picture.notes[y.1.key y.2]? with
    | some old => exact hover hbefore
    | none => simpa using hpresent
  title := rfl

end TimelineStage

end LiveDiagram
