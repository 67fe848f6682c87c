import LiveDiagram.Proofs.Timeline.Stage

namespace LiveDiagram

/-- Everybody to whom a key is attached has a list, and a list has in it exactly
    the keys that are attached to its owner, each of them once. Messages and
    notes are listed in the same way, so what happens to lists when a key or a
    participant comes or goes is shown here once for both. -/
structure ListsExactly (lists : String → Option (List String)) (attached : String → String → Prop) :
    Prop where
  isSome : ∀ {key id : String}, attached key id → (lists id).isSome
  mem_iff : ∀ {id : String} {keys : List String}, lists id = some keys → ∀ key,
    key ∈ keys ↔ attached key id
  nodup : ∀ {id : String} {keys : List String}, lists id = some keys → keys.Nodup

namespace ListsExactly

variable {lists lists' : String → Option (List String)} {attached attached' : String → String → Prop}
  {key owner : String}

theorem empty (hlists : ∀ id, lists id = none) (hattached : ∀ key id, ¬ attached key id) :
    ListsExactly lists attached where
  isSome h := (hattached _ _ h).elim
  mem_iff h := by rw [hlists] at h; cases h
  nodup h := by rw [hlists] at h; cases h

/-- Lists stay exact when neither the lists nor what is attached change. -/
theorem congr (h : ListsExactly lists attached) (hlists : ∀ id, lists' id = lists id)
    (hattached : ∀ key id, attached' key id ↔ attached key id) : ListsExactly lists' attached' := by
  obtain rfl := funext hlists
  obtain rfl := funext fun key => funext fun id => propext (hattached key id)
  exact h

/-- A key is taken off the lists of those to whom it was attached. The other
    lists do not have it, so nothing has to be known about how far the taking
    off goes. -/
theorem drop (h : ListsExactly lists attached) {ends : String → Prop} [DecidablePred ends]
    (hends : ∀ id, attached key id → ends id)
    (hlists : ∀ id, lists' id =
      if ends id then (lists id).map (List.filter fun k => k != key) else lists id)
    (hattached : ∀ other id, attached' other id ↔ other ≠ key ∧ attached other id) :
    ListsExactly lists' attached' := by
  have hdropped : ∀ {id : String} {keys : List String}, lists' id = some keys →
      ∃ before, lists id = some before ∧ keys = before.filter fun k => k != key := by
    intro id keys hkeys
    rw [hlists] at hkeys
    split at hkeys
    · obtain ⟨before, hbefore, rfl⟩ := Option.map_eq_some_iff.mp hkeys
      exact ⟨before, hbefore, rfl⟩
    · rename_i hnot
      refine ⟨keys, hkeys, (List.filter_eq_self.mpr fun k hk => ?_).symm⟩
      simp only [bne_iff_ne, ne_eq]
      rintro rfl
      exact hnot (hends id ((h.mem_iff hkeys k).mp hk))
  constructor
  · intro other id hat
    have hsome := h.isSome ((hattached other id).mp hat).2
    rw [hlists]
    split
    · rwa [Option.isSome_map]
    · exact hsome
  · intro id keys hkeys other
    obtain ⟨before, hbefore, rfl⟩ := hdropped hkeys
    rw [hattached, List.mem_filter, h.mem_iff hbefore, bne_iff_ne]
    exact and_comm
  · intro id keys hkeys
    obtain ⟨before, hbefore, rfl⟩ := hdropped hkeys
    exact (h.nodup hbefore).filter _

/-- A new key is put on the lists of those to whom it is attached. They all have
    a list, and no list has the key yet, so none has it twice afterwards. -/
theorem add (h : ListsExactly lists attached) (key : String) (ends : String → Prop)
    [DecidablePred ends]
    (hnew : ∀ id, ¬ attached key id) (hends : ∀ id, ends id → (lists id).isSome)
    (hlists : ∀ id, lists' id = if ends id then (lists id).map (· ++ [key]) else lists id)
    (hattached : ∀ other id, attached' other id ↔ if key = other then ends id else attached other id) :
    ListsExactly lists' attached' := by
  constructor
  · intro other id hat
    have hsome : (lists id).isSome := by
      rw [hattached] at hat
      split at hat
      · exact hends id hat
      · exact h.isSome hat
    rw [hlists]
    split
    · rwa [Option.isSome_map]
    · exact hsome
  · intro id keys hkeys other
    rw [hlists] at hkeys
    rw [hattached]
    split at hkeys
    · rename_i hend
      obtain ⟨before, hbefore, rfl⟩ := Option.map_eq_some_iff.mp hkeys
      by_cases hkey : key = other
      · simp [hkey, hend]
      · simp [hkey, Ne.symm hkey, h.mem_iff hbefore]
    · rename_i hend
      rw [h.mem_iff hkeys]
      split
      · rename_i hkey
        exact iff_of_false (hkey ▸ hnew id) hend
      · exact Iff.rfl
  · intro id keys hkeys
    rw [hlists] at hkeys
    split at hkeys
    · obtain ⟨before, hbefore, rfl⟩ := Option.map_eq_some_iff.mp hkeys
      have hfresh : key ∉ before := fun hmem => hnew id ((h.mem_iff hbefore key).mp hmem)
      rw [List.nodup_append]
      refine ⟨h.nodup hbefore, List.pairwise_singleton _ key, ?_⟩
      rintro a ha b hb rfl
      exact hfresh (List.mem_singleton.mp hb ▸ ha)
    · exact h.nodup hkeys

/-- Somebody keeps their list, or gets an empty one: nothing is attached to
    anybody who has none. -/
theorem enlist (h : ListsExactly lists attached) (owner : String)
    (hlists : ∀ id, lists' id = if owner = id then some ((lists id).getD []) else lists id) :
    ListsExactly lists' attached := by
  have hkept : ∀ {id : String} {keys : List String}, lists' id = some keys →
      lists id = some keys ∨ lists id = none ∧ keys = [] := by
    intro id keys hkeys
    rw [hlists] at hkeys
    split at hkeys
    · cases hbefore : lists id with
      | none =>
        rw [hbefore] at hkeys
        exact .inr ⟨rfl, (Option.some.inj hkeys).symm⟩
      | some before =>
        rw [hbefore] at hkeys
        exact .inl hkeys
    · exact .inl hkeys
  constructor
  · intro other id hat
    rw [hlists]
    split
    · rfl
    · exact h.isSome hat
  · intro id keys hkeys other
    rcases hkept hkeys with hbefore | ⟨hnone, rfl⟩
    · exact h.mem_iff hbefore other
    · refine iff_of_false List.not_mem_nil fun hat => ?_
      have hsome := h.isSome hat
      rw [hnone] at hsome
      cases hsome
  · intro id keys hkeys
    rcases hkept hkeys with hbefore | ⟨-, rfl⟩
    · exact h.nodup hbefore
    · exact List.nodup_nil

/-- Somebody to whom nothing is attached gives up their list. -/
theorem forget (h : ListsExactly lists attached) (hfree : ∀ key, ¬ attached key owner)
    (hlists : ∀ id, lists' id = if owner = id then none else lists id) :
    ListsExactly lists' attached := by
  have hkept : ∀ {id : String} {keys : List String}, lists' id = some keys → lists id = some keys := by
    intro id keys hkeys
    rw [hlists] at hkeys
    split at hkeys
    · cases hkeys
    · exact hkeys
  refine ⟨fun {key id} hat => ?_, fun hkeys => h.mem_iff (hkept hkeys), fun hkeys => h.nodup (hkept hkeys)⟩
  have hne : owner ≠ id := by
    rintro rfl
    exact hfree key hat
  rw [hlists, if_neg hne]
  exact h.isSome hat

end ListsExactly

variable {α : Type}

/-- Whether one of the ends of the message is that participant. -/
def Message.EndsAt (m : Message) (id : String) : Prop :=
  m.source = id ∨ m.target = id

instance Message.decidableEndsAt (m : Message) (id : String) : Decidable (m.EndsAt id) :=
  inferInstanceAs (Decidable (_ ∨ _))

namespace Timeline

/-- The messages that the participant with that id lists. -/
def messageList? (t : Timeline α) (id : String) : Option (List String) :=
  t.participants[id]?.map ParticipantItem.messageKeys

/-- The notes that the participant with that id lists. -/
def noteList? (t : Timeline α) (id : String) : Option (List String) :=
  t.participants[id]?.map ParticipantItem.noteKeys

/-- The message under that key ends at that participant. -/
def HasMessageAt (t : Timeline α) (key id : String) : Prop :=
  ∃ m, t.messages[key]? = some m ∧ m.message.EndsAt id

/-- The note under that key is over that participant. -/
def HasNoteAt (t : Timeline α) (key id : String) : Prop :=
  ∃ n, t.notes[key]? = some n ∧ id ∈ n.note.participants

section Lists

theorem messageList?_of_getElem? {t : Timeline α} {id : String} {p : ParticipantItem α}
    (hp : t.participants[id]? = some p) : t.messageList? id = some p.messageKeys := by
  unfold messageList?
  rw [hp]
  rfl

theorem noteList?_of_getElem? {t : Timeline α} {id : String} {p : ParticipantItem α}
    (hp : t.participants[id]? = some p) : t.noteList? id = some p.noteKeys := by
  unfold noteList?
  rw [hp]
  rfl

/-- Every participant that is there has a list of messages, if only the empty
    one. -/
theorem messageList?_isSome {t : Timeline α} {id : String} :
    (t.messageList? id).isSome ↔ id ∈ t.participants := by
  rw [messageList?, Option.isSome_map, Std.ExtTreeMap.mem_iff_isSome_getElem?]

/-- Every participant that is there has a list of notes, if only the empty
    one. -/
theorem noteList?_isSome {t : Timeline α} {id : String} :
    (t.noteList? id).isSome ↔ id ∈ t.participants := by
  rw [noteList?, Option.isSome_map, Std.ExtTreeMap.mem_iff_isSome_getElem?]

variable (t : Timeline α) (key id other : String)

/-- What is seen of the participants after a change to one of them, if what is
    seen of a participant changes along. -/
theorem modifyParticipant_view {β : Type} {view : ParticipantItem α → β} {g : β → β}
    {f : ParticipantItem α → ParticipantItem α} (hf : ∀ p, view (f p) = g (view p)) :
    (t.modifyParticipant id f).participants[other]?.map view =
      if id = other then (t.participants[other]?.map view).map g
      else t.participants[other]?.map view := by
  unfold modifyParticipant
  dsimp only
  by_cases h : id = other
  · subst h
    rw [Std.ExtTreeMap.getElem?_modify_self, if_pos rfl, Option.map_map, Option.map_map]
    exact congrArg (Option.map · _) (funext hf)
  · grind

/-- A change that cannot be seen is not seen at any participant. -/
theorem modifyParticipant_view_of_eq {β : Type} {view : ParticipantItem α → β}
    {f : ParticipantItem α → ParticipantItem α} (hf : ∀ p, view (f p) = view p) :
    (t.modifyParticipant id f).participants[other]?.map view = t.participants[other]?.map view := by
  rw [t.modifyParticipant_view id other (g := fun x => x) hf]
  cases t.participants[other]? <;> simp

theorem linkMessage_messageList? :
    (t.linkMessage key id).messageList? other =
      if id = other then (t.messageList? other).map (· ++ [key]) else t.messageList? other :=
  t.modifyParticipant_view id other fun _ => rfl

theorem linkMessage_noteList? : (t.linkMessage key id).noteList? other = t.noteList? other :=
  t.modifyParticipant_view_of_eq id other fun _ => rfl

theorem unlinkMessage_messageList? :
    (t.unlinkMessage key id).messageList? other =
      if id = other then (t.messageList? other).map (List.filter fun k => k != key)
      else t.messageList? other :=
  t.modifyParticipant_view id other fun _ => rfl

theorem unlinkMessage_noteList? : (t.unlinkMessage key id).noteList? other = t.noteList? other :=
  t.modifyParticipant_view_of_eq id other fun _ => rfl

theorem linkNote_noteList? :
    (t.linkNote key id).noteList? other =
      if id = other then (t.noteList? other).map (· ++ [key]) else t.noteList? other :=
  t.modifyParticipant_view id other fun _ => rfl

theorem linkNote_messageList? : (t.linkNote key id).messageList? other = t.messageList? other :=
  t.modifyParticipant_view_of_eq id other fun _ => rfl

theorem unlinkNote_noteList? :
    (t.unlinkNote key id).noteList? other =
      if id = other then (t.noteList? other).map (List.filter fun k => k != key)
      else t.noteList? other :=
  t.modifyParticipant_view id other fun _ => rfl

theorem unlinkNote_messageList? : (t.unlinkNote key id).messageList? other = t.messageList? other :=
  t.modifyParticipant_view_of_eq id other fun _ => rfl

/-- A message is put on the lists of its ends, and once only if both ends are
    the same participant. -/
theorem listMessage_messageList? (spec : Message) :
    (t.listMessage key spec).messageList? id =
      if spec.EndsAt id then (t.messageList? id).map (· ++ [key]) else t.messageList? id := by
  unfold listMessage Message.EndsAt
  dsimp only
  by_cases hself : spec.target = spec.source
  · simp [hself, linkMessage_messageList?]
  · rw [if_neg hself, linkMessage_messageList?, linkMessage_messageList?]
    by_cases hsource : spec.source = id
    · subst hsource
      simp [hself]
    · simp [hsource]

theorem listMessage_noteList? (spec : Message) :
    (t.listMessage key spec).noteList? id = t.noteList? id := by
  unfold listMessage
  dsimp only
  split <;> simp only [linkMessage_noteList?]

/-- A note is put on the lists of its participants. They are different ones, so
    no list gets it twice. -/
theorem foldl_linkNote_noteList? {ids : List String} (hids : ids.Nodup) :
    (ids.foldl (fun t id => t.linkNote key id) t).noteList? other =
      if other ∈ ids then (t.noteList? other).map (· ++ [key]) else t.noteList? other := by
  induction ids generalizing t with
  | nil => rfl
  | cons first ids ih =>
    rw [List.nodup_cons] at hids
    rw [List.foldl_cons, ih _ hids.2, linkNote_noteList?]
    by_cases hfirst : first = other
    · subst hfirst
      simp [hids.1]
    · simp [hfirst, Ne.symm hfirst]

theorem foldl_linkNote_messageList? (ids : List String) :
    (ids.foldl (fun t id => t.linkNote key id) t).messageList? other = t.messageList? other :=
  foldl_view (fun t : Timeline α => t.messageList? other)
    (fun t id => t.linkNote_messageList? key id other) ids t

/-- A note is taken off the lists of its participants, however often it was
    there. -/
theorem foldl_unlinkNote_noteList? (ids : List String) :
    (ids.foldl (fun t id => t.unlinkNote key id) t).noteList? other =
      if other ∈ ids then (t.noteList? other).map (List.filter fun k => k != key)
      else t.noteList? other := by
  induction ids generalizing t with
  | nil => rfl
  | cons first ids ih =>
    rw [List.foldl_cons, ih, unlinkNote_noteList?]
    by_cases hfirst : first = other
    · subst hfirst
      by_cases hrest : first ∈ ids <;> simp [hrest, Function.comp_def]
    · simp [hfirst, Ne.symm hfirst]

theorem foldl_unlinkNote_messageList? (ids : List String) :
    (ids.foldl (fun t id => t.unlinkNote key id) t).messageList? other = t.messageList? other :=
  foldl_view (fun t : Timeline α => t.messageList? other)
    (fun t id => t.unlinkNote_messageList? key id other) ids t

end Lists

section Attached

variable {t : Timeline α} {key other id : String}

/-- Without a message, the other ones end where they did. -/
theorem withoutMessage_hasMessageAt :
    (t.withoutMessage key).HasMessageAt other id ↔ other ≠ key ∧ t.HasMessageAt other id := by
  unfold HasMessageAt
  rw [withoutMessage_getElem?]
  by_cases h : key = other
  · simp [h]
  · simp [h, Ne.symm h]

/-- Without a note, the other ones are over the participants they were over. -/
theorem withoutNote_hasNoteAt :
    (t.withoutNote key).HasNoteAt other id ↔ other ≠ key ∧ t.HasNoteAt other id := by
  unfold HasNoteAt
  rw [withoutNote_getElem?]
  by_cases h : key = other
  · simp [h]
  · simp [h, Ne.symm h]

/-- A message that is put ends at its own ends, and the other ones where they
    did. -/
theorem withMessage_hasMessageAt {spec : Message} {m : MessageItem α} :
    (t.withMessage key spec m).HasMessageAt other id ↔
      if key = other then m.message.EndsAt id else t.HasMessageAt other id := by
  unfold HasMessageAt
  rw [withMessage_getElem?]
  split <;> simp

/-- A note that is put is over its own participants, and the other ones over
    theirs. -/
theorem withNote_hasNoteAt {present : List String} {n : NoteItem α} :
    (t.withNote key present n).HasNoteAt other id ↔
      if key = other then id ∈ n.note.participants else t.HasNoteAt other id := by
  unfold HasNoteAt
  rw [withNote_getElem?]
  split <;> simp

end Attached

end Timeline

end LiveDiagram
