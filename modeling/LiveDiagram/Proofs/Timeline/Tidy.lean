import LiveDiagram.Proofs.Session.Calls
import LiveDiagram.Proofs.Timeline.Rendering

namespace LiveDiagram

variable {α : Type}

/-- Every message is found under its own key, and its ends have no bars in their
    ids. -/
def Timeline.Keyed (t : Timeline α) : Prop :=
  ∀ (key : String) (m : MessageItem α), t.messages[key]? = some m →
    m.message.BarFree ∧ ∃ index, m.message.key index = key

/-- The stage refuses nothing and its timeline is in order, as renderings and
    edits leave it: it knows the order of its participants, has every message
    under its own key, and owns everything that is on the surface. -/
structure TimelineStage.Tidy (s : TimelineStage α) : Prop where
  accepts : s.surface.Accepts
  ordered : ∀ id ∈ s.picture.participants, id ∈ s.picture.order
  keyed : s.picture.Keyed
  owned : ∀ name ∈ s.surface.primitives, s.picture.Owns name

namespace TimelineStage

theorem tidy_empty {s : TimelineStage α} (haccepts : s.surface.Accepts)
    (hpicture : s.picture = .empty) (hprimitives : s.surface.primitives = ∅) : s.Tidy where
  accepts := haccepts
  ordered id hid := by simp [hpicture, Timeline.empty] at hid
  keyed key m hm := by simp [hpicture, Timeline.empty] at hm
  owned name hname := by simp [hprimitives] at hname

namespace Tidy

variable {s : TimelineStage α}

/-- Marks under ids that the timeline owns keep it tidy. -/
theorem draw (hs : s.Tidy) (marks : List (Mark α))
    (hmarks : ∀ name ∈ Mark.ids marks, s.picture.Owns name) :
    TimelineStage.Tidy (Stage.draw s marks).state where
  accepts := (s.surface.draw_refused marks).trans hs.accepts
  ordered := hs.ordered
  keyed := hs.keyed
  owned name hname := (Surface.Accepts.mem_draw hs.accepts hname).elim (hmarks name) (hs.owned name)

/-- A change to places and boxes alone keeps a timeline tidy. -/
theorem set (hs : s.Tidy) {t : Timeline α}
    (hparticipants : ∀ id, id ∈ t.participants ↔ id ∈ s.picture.participants)
    (hmessages : t.messages = s.picture.messages) (hnotes : ∀ key ∈ s.picture.notes, key ∈ t.notes)
    (horder : t.order = s.picture.order) : (s.set t).Tidy where
  accepts := hs.accepts
  ordered id hid := by
    change id ∈ t.order
    rw [horder]
    exact hs.ordered id ((hparticipants id).mp hid)
  keyed key m hm := hs.keyed key m (hmessages ▸ hm)
  owned name hname := (hs.owned name hname).mono (fun id => (hparticipants id).mpr)
    (fun key hkey => by rw [TimelineStage.set, hmessages]; exact hkey) hnotes

variable [Scalar α]

theorem drawParticipant (hs : s.Tidy) (id : String) : (s.drawParticipant id).state.Tidy := by
  unfold TimelineStage.drawParticipant
  split
  · rename_i p hp
    refine hs.draw (p.marks id) fun name hname => .inr (.inl ⟨id, ?_, hname⟩)
    exact Std.ExtTreeMap.mem_iff_isSome_getElem?.mpr (by simp [hp])
  · exact hs

theorem drawMessage (hs : s.Tidy) (key : String) : (s.drawMessage key).state.Tidy := by
  unfold TimelineStage.drawMessage
  split
  · rename_i m hm
    refine hs.draw _ fun name hname => .inr (.inr (.inl ⟨key, ?_, ?_⟩))
    · exact Std.ExtTreeMap.mem_iff_isSome_getElem?.mpr (by simp [hm])
    · rwa [MessageItem.ids_marks] at hname
  · exact hs

theorem drawNote (hs : s.Tidy) (key : String) : (s.drawNote key).state.Tidy := by
  unfold TimelineStage.drawNote
  split
  · refine Tidy.draw ?_ _ fun name hname => .inr (.inr (.inr ⟨key, ?_, hname⟩))
    · exact hs.set (fun _ => Iff.rfl) rfl
        (fun _ hother => Std.ExtTreeMap.mem_insert.mpr (.inr hother)) rfl
    · exact Std.ExtTreeMap.mem_insert_self
  · exact hs

theorem drawTitle (hs : s.Tidy) : s.drawTitle.state.Tidy := by
  refine hs.draw _ fun name hname => .inl ?_
  rw [Timeline.ids_titleMarks] at hname
  exact List.mem_singleton.mp hname

/-- Drawing what depends on a participant keeps a timeline tidy. -/
theorem updateDependents (hs : s.Tidy) (id : String) : (s.updateDependents id).state.Tidy := by
  unfold TimelineStage.updateDependents
  split
  · exact hs
  · rename_i p _
    refine Outcome.andThen_state (Outcome.andThen_state ?_ fun t ht => ?_) fun t ht => ht.drawTitle
    · exact Outcome.forEach_state (P := Tidy) (fun key _ _ ht => ht.drawMessage key) hs
    · exact Outcome.forEach_state (P := Tidy) (fun key _ _ hu => hu.drawNote key) ht

/-- Moving a participant keeps a timeline tidy. -/
theorem moveParticipant (hs : s.Tidy) (id : String) (x : α) :
    (s.moveParticipant id x).state.Tidy := by
  unfold TimelineStage.moveParticipant
  split
  · exact hs
  · rename_i p hp
    have hid : id ∈ s.picture.participants :=
      Std.ExtTreeMap.mem_iff_isSome_getElem?.mpr (by simp [hp])
    have hset : (TimelineStage.set s (s.picture.setParticipant id { p with x })).Tidy := by
      refine hs.set (fun other => ?_) rfl (fun _ h => h) rfl
      unfold Timeline.setParticipant
      dsimp only
      rw [Std.ExtTreeMap.mem_insert]
      constructor
      · rintro (heq | hother)
        · exact Std.LawfulEqCmp.eq_of_compare heq ▸ hid
        · exact hother
      · exact .inr
    exact Outcome.andThen_state (hset.drawParticipant id) fun t ht => ht.updateDependents id

theorem commitParticipant (hs : s.Tidy) (id : String) : (s.commitParticipant id).Tidy := by
  unfold TimelineStage.commitParticipant
  split
  · exact hs
  · exact ⟨hs.accepts, hs.ordered, hs.keyed, hs.owned⟩

theorem edit (hs : s.Tidy) (e : TimelineEdit α) : (s.edit e).state.Tidy := by
  cases e with
  | moveParticipant id x => exact hs.moveParticipant id x
  | commitParticipant id => exact hs.commitParticipant id

end Tidy

variable [Scalar α]

/-- On a tidy timeline a message is placed as the diagram states it: what is
    there under its key has the same ends. -/
theorem placedMessage_of_keyed {t : Timeline α} (ht : t.Keyed) {spec : Message} (hspec : spec.BarFree)
    (index : Nat) : placedMessage t spec index = ⟨spec, Layout.messageY index⟩ := by
  unfold placedMessage
  cases hm : t.messages[spec.key index]? with
  | none => rfl
  | some m =>
    obtain ⟨hbar, other, hkey⟩ := ht _ m hm
    have hsame : m.message = spec := Message.eq_of_key_eq hbar hspec hkey
    dsimp only
    rw [hsame]

section Rendered

variable {s : TimelineStage α} {d : Sequence}

theorem rendered_messages : (s.rendered d).messages = (s.withMessages d).picture.messages :=
  (s.withMessages d).placeNotes_messages d

theorem withMessages_notes : (s.withMessages d).picture.notes = s.picture.notes :=
  ((s.placeParticipants d).placeMessages_notes d).trans (placeAll_sameRest _ _ s).notes

theorem placeParticipants_messages : (s.placeParticipants d).picture.messages = s.picture.messages :=
  (placeAll_sameRest _ _ s).messages

theorem keyed_placeParticipants (hs : s.Tidy) : (s.placeParticipants d).picture.Keyed := by
  intro key m hm
  rw [placeParticipants_messages] at hm
  exact hs.keyed key m hm

/-- After the participants of a covering diagram are placed, exactly these are
    there. -/
theorem mem_placeParticipants (hcovered : s.CoveredBy d) {id : String} :
    id ∈ (s.placeParticipants d).picture.participants ↔ id ∈ d.participants.map Participant.id := by
  rw [placeParticipants_eq, mem_placeAll, d.zipIdx_participantIds]
  exact ⟨fun h => h.elim (fun hid => hid) (hcovered id), .inl⟩

/-- After a rendering exactly the participants of the diagram are there. -/
theorem mem_rendered_participants (haccepts : s.surface.Accepts)
    (hcovered : s.CoveredBy d) {id : String} :
    id ∈ (s.rendered d).participants ↔ id ∈ d.participants.map Participant.id := by
  have hplaced : id ∈ (s.rendered d).participants ↔
      id ∈ (s.placeParticipants d).picture.participants :=
    Timeline.mem_participants_congr ((withNotes_frame haccepts d).bare id)
  exact hplaced.trans (mem_placeParticipants hcovered)

/-- After a rendering every message is under its own key. -/
theorem keyed_rendered (hs : s.Tidy) (hbar : ∀ m ∈ d.messages, m.BarFree) :
    (s.rendered d).Keyed := by
  intro key m hm
  have hran := withMessages_ran hs.accepts d
  rw [rendered_messages] at hm
  have hkey := hran.isSome_lookup_iff.mp (Option.isSome_of_eq_some hm)
  obtain ⟨x, hx, rfl⟩ := List.mem_map.mp hkey
  have hspec := hbar x.1 (mem_of_mem_presentMessages hx)
  have hplaced : some m = some (placedMessage (s.placeParticipants d).picture x.1 x.2) :=
    hm.symm.trans (hran.lookup_of_mem x hx)
  rw [placedMessage_of_keyed (keyed_placeParticipants hs) hspec, Option.some.injEq] at hplaced
  rw [hplaced]
  exact ⟨hspec, x.2, rfl⟩

/-- What is found after a rendering is part of what was rendered, since what was
    there before was part of something that was rendered anew or removed. The
    phases are taken back one by one, the last one first. -/
theorem owned_withNotes (hs : s.Tidy) (hcovered : s.CoveredBy d) {name : String}
    (hname : name ∈ (s.withNotes d).surface.primitives) : (s.rendered d).Owns name := by
  rcases (withNotes_ran hs.accepts d).mem_cases hname with ⟨key, hkey, hpart⟩ | ⟨hname, hnote⟩
  · exact .inr (.inr (.inr ⟨key, Std.ExtTreeMap.mem_iff_isSome_getElem?.mpr hkey, hpart⟩))
  rcases (withMessages_ran hs.accepts d).mem_cases hname with ⟨key, hkey, hpart⟩ | ⟨hname, hmessage⟩
  · refine .inr (.inr (.inl ⟨key, ?_, hpart⟩))
    rw [rendered_messages]
    exact Std.ExtTreeMap.mem_iff_isSome_getElem?.mpr hkey
  by_cases hmem : name ∈ Mark.ids
      (participantMarks s.store d.config.participantSpacing d.participants.zipIdx)
  · obtain ⟨x, hx, hpart⟩ := mem_ids_participantMarks.mp hmem
    refine .inr (.inl ⟨x.1.id, (mem_rendered_participants hs.accepts hcovered).mpr ?_, hpart⟩)
    exact List.mem_map_of_mem (List.fst_mem_of_mem_zipIdx hx)
  rw [Std.ExtTreeMap.mem_iff_isSome_getElem?, placeParticipants_eq, placeAll_found _ _ hs.accepts,
    Mark.effect_of_not_mem hmem, ← Std.ExtTreeMap.mem_iff_isSome_getElem?] at hname
  rcases hs.owned name hname with htitle | ⟨id, hid, hpart⟩ | ⟨key, hkey, hpart⟩ | ⟨key, hkey, hpart⟩
  · exact .inl htitle
  · exact .inr (.inl ⟨id, (mem_rendered_participants hs.accepts hcovered).mpr (hcovered id hid), hpart⟩)
  · refine absurd ⟨key, ?_, hpart⟩ hmessage
    rw [← placeParticipants_messages (d := d)] at hkey
    exact Std.ExtTreeMap.mem_iff_isSome_getElem?.mp hkey
  · refine absurd ⟨key, ?_, hpart⟩ hnote
    rw [← withMessages_notes (d := d)] at hkey
    exact Std.ExtTreeMap.mem_iff_isSome_getElem?.mp hkey

end Rendered

/-- Rendering a diagram keeps a timeline tidy if the diagram has all its
    participants. -/
theorem Tidy.render {s : TimelineStage α} (hs : s.Tidy) {d : Sequence} (hcovered : s.CoveredBy d)
    (hbar : ∀ m ∈ d.messages, m.BarFree) : (s.render d).state.Tidy := by
  obtain ⟨hpicture, hsurface⟩ := render_scene hs.accepts hcovered
  refine ⟨(s.render_sameSetup d).accepts hs.accepts, fun id hid => ?_, ?_, fun name hname => ?_⟩
  · rw [hpicture] at hid ⊢
    exact (mem_rendered_participants hs.accepts hcovered).mp hid
  · rw [hpicture]
    exact keyed_rendered hs hbar
  · rw [hpicture]
    rw [hsurface] at hname
    have haccepts := (withNotes_sameSetup hs.accepts d).accepts hs.accepts
    rcases haccepts.mem_draw hname with htitle | hbefore
    · rw [Timeline.ids_titleMarks] at htitle
      exact .inl (List.mem_singleton.mp htitle)
    · exact owned_withNotes hs hcovered hbefore

end TimelineStage

end LiveDiagram
