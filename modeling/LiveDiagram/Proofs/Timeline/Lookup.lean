import LiveDiagram.Proofs.Number.Span
import LiveDiagram.Timeline.Edit
import LiveDiagram.Timeline.Render

namespace LiveDiagram

variable {α : Type}

/-- The participant without its lists of messages and notes. -/
def ParticipantItem.bare (p : ParticipantItem α) : ParticipantItem α :=
  { p with messageKeys := [], noteKeys := [] }

namespace Timeline

/-- The participant with that id, without its lists. Which messages and notes a
    participant lists is not drawn, so most is stated for bare participants. -/
def bare? (t : Timeline α) (id : String) : Option (ParticipantItem α) :=
  t.participants[id]?.map ParticipantItem.bare

theorem mem_participants_iff {t : Timeline α} {id : String} :
    id ∈ t.participants ↔ (t.bare? id).isSome := by
  rw [Std.ExtTreeMap.mem_iff_isSome_getElem?, bare?, Option.isSome_map]

theorem mem_participants_congr {t t' : Timeline α} {id : String} (h : t'.bare? id = t.bare? id) :
    id ∈ t'.participants ↔ id ∈ t.participants := by
  rw [mem_participants_iff, mem_participants_iff, h]

theorem contains_congr {t t' : Timeline α} (h : ∀ id, t'.bare? id = t.bare? id) :
    t'.participants.contains = t.participants.contains := by
  funext id
  rw [Bool.eq_iff_iff, Std.ExtTreeMap.contains_iff_mem, Std.ExtTreeMap.contains_iff_mem]
  exact mem_participants_congr (h id)

/-- Replacing a participant is seen at that participant and nowhere else. -/
theorem setParticipant_bare? (t : Timeline α) (id other : String) (p : ParticipantItem α) :
    (t.setParticipant id p).bare? other = if id = other then some p.bare else t.bare? other := by
  unfold bare? setParticipant
  dsimp only
  by_cases h : id = other
  · simp [h]
  · rw [if_neg h]
    grind

/-- A change to the lists of a participant is not seen at the bare
    participants. -/
theorem modifyParticipant_bare? (t : Timeline α) (id other : String)
    {f : ParticipantItem α → ParticipantItem α} (hf : ∀ p, (f p).bare = p.bare) :
    (t.modifyParticipant id f).bare? other = t.bare? other := by
  unfold bare? modifyParticipant
  dsimp only
  by_cases h : id = other
  · subst h
    rw [Std.ExtTreeMap.getElem?_modify_self, Option.map_map]
    exact congrArg (Option.map · _) (funext hf)
  · grind

@[simp] theorem linkMessage_bare? (t : Timeline α) (key id other : String) :
    (t.linkMessage key id).bare? other = t.bare? other :=
  t.modifyParticipant_bare? id other fun _ => rfl

@[simp] theorem unlinkMessage_bare? (t : Timeline α) (key id other : String) :
    (t.unlinkMessage key id).bare? other = t.bare? other :=
  t.modifyParticipant_bare? id other fun _ => rfl

@[simp] theorem linkNote_bare? (t : Timeline α) (key id other : String) :
    (t.linkNote key id).bare? other = t.bare? other :=
  t.modifyParticipant_bare? id other fun _ => rfl

@[simp] theorem unlinkNote_bare? (t : Timeline α) (key id other : String) :
    (t.unlinkNote key id).bare? other = t.bare? other :=
  t.modifyParticipant_bare? id other fun _ => rfl

section Folds

variable (t : Timeline α) (key : String) (ids : List String)

/-- Listing a note is not seen at the bare participants. -/
theorem foldl_linkNote_bare? (other : String) :
    (ids.foldl (fun t id => t.linkNote key id) t).bare? other = t.bare? other := by
  induction ids generalizing t with
  | nil => rfl
  | cons id ids ih => rw [List.foldl_cons, ih, linkNote_bare?]

/-- Taking a note off the lists is not seen at the bare participants. -/
theorem foldl_unlinkNote_bare? (other : String) :
    (ids.foldl (fun t id => t.unlinkNote key id) t).bare? other = t.bare? other := by
  induction ids generalizing t with
  | nil => rfl
  | cons id ids ih => rw [List.foldl_cons, ih, unlinkNote_bare?]

/-- Everything but the participants stays as it is. -/
structure SameRest (t t' : Timeline α) : Prop where
  messages : t'.messages = t.messages
  notes : t'.notes = t.notes
  title : t'.title = t.title
  order : t'.order = t.order

theorem foldl_linkNote_sameRest : SameRest t (ids.foldl (fun t id => t.linkNote key id) t) := by
  induction ids generalizing t with
  | nil => exact ⟨rfl, rfl, rfl, rfl⟩
  | cons id ids ih =>
    have hrest := ih (t.linkNote key id)
    exact ⟨hrest.messages, hrest.notes, hrest.title, hrest.order⟩

theorem foldl_unlinkNote_sameRest : SameRest t (ids.foldl (fun t id => t.unlinkNote key id) t) := by
  induction ids generalizing t with
  | nil => exact ⟨rfl, rfl, rfl, rfl⟩
  | cons id ids ih =>
    have hrest := ih (t.unlinkNote key id)
    exact ⟨hrest.messages, hrest.notes, hrest.title, hrest.order⟩

end Folds

variable [Scalar α]

/-- The lifeline of a participant can be told without its lists. -/
theorem centerOf_eq_bare? (t : Timeline α) (id : String) :
    t.centerOf id = ((t.bare? id).map ParticipantItem.center).getD 0 := by
  unfold centerOf bare?
  rw [Option.map_map]
  rfl

/-- Lifelines are in the same places on timelines with the same bare
    participants. -/
theorem centerOf_congr {t t' : Timeline α} (h : ∀ id, t'.bare? id = t.bare? id) :
    t'.centerOf = t.centerOf := by
  funext id
  rw [centerOf_eq_bare?, centerOf_eq_bare?, h]

/-- Participants span the same on timelines with the same bare participants. -/
theorem extentOf_congr {t t' : Timeline α} (h : ∀ id, t'.bare? id = t.bare? id) :
    t'.extentOf = t.extentOf := by
  funext ids
  have hcenter : ∀ id : String, t'.participants[id]?.map ParticipantItem.center =
      t.participants[id]?.map ParticipantItem.center := by
    intro id
    have hbare := congrArg (Option.map ParticipantItem.center) (h id)
    unfold bare? at hbare
    rw [Option.map_map, Option.map_map] at hbare
    exact hbare
  unfold extentOf
  congr 2
  funext id
  exact hcenter id

/-- Notes have the same boxes on timelines with the same bare participants. -/
theorem noteBox_congr {t t' : Timeline α} (h : ∀ id, t'.bare? id = t.bare? id) :
    t'.noteBox = t.noteBox := by
  funext ids y textHeight
  unfold noteBox
  rw [extentOf_congr h]

section Extents

variable {t : Timeline α}

end Extents

end Timeline

end LiveDiagram
