import LiveDiagram.Proofs.Surface.Drawing
import LiveDiagram.Proofs.Surface.PartIds
import LiveDiagram.Proofs.Timeline.Lookup

namespace LiveDiagram

variable {α : Type}

namespace Timeline

/-- The id of a part of something on the timeline. The title may be there or
    not. -/
def Owns (t : Timeline α) (name : String) : Prop :=
  name = Part.title.id ∨ (∃ id ∈ t.participants, name ∈ ParticipantItem.partIds id) ∨
    (∃ key ∈ t.messages, name ∈ MessageItem.partIds key) ∨
    ∃ key ∈ t.notes, name ∈ NoteItem.partIds key

/-- A timeline that has all that another one has owns all that the other one
    owns. -/
theorem Owns.mono {t u : Timeline α} {name : String} (h : t.Owns name)
    (hparticipants : ∀ id ∈ t.participants, id ∈ u.participants)
    (hmessages : ∀ key ∈ t.messages, key ∈ u.messages) (hnotes : ∀ key ∈ t.notes, key ∈ u.notes) :
    u.Owns name := by
  rcases h with htitle | ⟨id, hid, hname⟩ | ⟨key, hkey, hname⟩ | ⟨key, hkey, hname⟩
  · exact .inl htitle
  · exact .inr (.inl ⟨id, hparticipants id hid, hname⟩)
  · exact .inr (.inr (.inl ⟨key, hmessages key hkey, hname⟩))
  · exact .inr (.inr (.inr ⟨key, hnotes key hkey, hname⟩))

end Timeline

variable [Scalar α]

theorem ParticipantItem.ids_marks (id : String) (p : ParticipantItem α) :
    Mark.ids (p.marks id) = partIds id :=
  rfl

theorem MessageItem.ids_marks (measure : Measure α) (key : String) (m : MessageItem α) (x1 x2 : α) :
    Mark.ids (m.marks measure key x1 x2) = partIds key := by
  unfold marks
  cases m.message.style <;> rfl

theorem NoteItem.ids_marks (key : String) (n : NoteItem α) : Mark.ids (n.marks key) = partIds key :=
  rfl

/-- How a note is drawn depends on its box and its text, and not on the
    participants that it names. -/
theorem NoteItem.marks_congr {key : String} {n n' : NoteItem α} (hrect : n'.rect = n.rect)
    (htext : n'.note.text = n.note.text) : n'.marks key = n.marks key := by
  unfold marks
  rw [hrect, htext]

/-- Every part of a note is put when the note is drawn; none is erased. -/
theorem NoteItem.exists_put_of_mem_partIds {key name : String} (n : NoteItem α)
    (hname : name ∈ partIds key) : ∃ p, Mark.put name p ∈ n.marks key := by
  simp only [partIds, List.mem_cons, List.not_mem_nil, or_false] at hname
  rcases hname with rfl | rfl
  · exact ⟨_, List.mem_cons_self⟩
  · exact ⟨_, List.mem_cons_of_mem _ List.mem_cons_self⟩

namespace Timeline

/-- The title is drawn or erased under the one id of the title. -/
theorem ids_titleMarks (measure : Measure α) (t : Timeline α) :
    Mark.ids (t.titleMarks measure) = [Part.title.id] := by
  unfold titleMarks
  split <;> rfl

/-- The participants span the same as long as they are the same but for their
    lists. -/
theorem extent_congr {t u : Timeline α} (h : ∀ id, u.bare? id = t.bare? id) : u.extent = t.extent := by
  have hbare : u.participants.map (fun _ p => p.bare) = t.participants.map fun _ p => p.bare := by
    apply Std.ExtTreeMap.ext_getElem?
    intro id
    simpa only [Std.ExtTreeMap.getElem?_map, bare?] using h id
  have hlists := congrArg Std.ExtTreeMap.toList hbare
  rw [Std.ExtTreeMap.toList_map, Std.ExtTreeMap.toList_map] at hlists
  have hcenters := congrArg (List.map fun p : String × ParticipantItem α => ParticipantItem.center p.2) hlists
  rw [List.map_map, List.map_map] at hcenters
  exact congrArg span hcenters

/-- The title is drawn in the same way as long as the participants are the same
    but for their lists. -/
theorem titleMarks_congr {t u : Timeline α} (measure : Measure α) (htitle : u.title = t.title)
    (h : ∀ id, u.bare? id = t.bare? id) : u.titleMarks measure = t.titleMarks measure := by
  unfold titleMarks
  rw [htitle, extent_congr h]

end Timeline

end LiveDiagram
