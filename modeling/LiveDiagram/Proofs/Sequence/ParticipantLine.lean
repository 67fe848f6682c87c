import LiveDiagram.Proofs.Sequence.Statement
import LiveDiagram.Proofs.Text.Forms

namespace LiveDiagram

open Text

namespace Sequence

variable {line id label : List Char}

/-- One of the two words that open the line of a participant, in any case. -/
def IsParticipantKeyword (s : List Char) : Prop :=
  lower s = "participant".toList ∨ lower s = "actor".toList

/-- The line declares the participant with that id, and with that label if it
    has one. -/
inductive ParticipantLine : (line id : List Char) → (label : Option (List Char)) → Prop
  | unlabelled {keyword gap id : List Char} (hkeyword : IsParticipantKeyword keyword) (hgap : IsGap gap)
      (hid : IsWord id) : ParticipantLine (keyword ++ (gap ++ id)) id none
  | labelled {keyword gap id before asWord behind label : List Char} (hkeyword : IsParticipantKeyword keyword)
      (hgap : IsGap gap) (hid : IsWord id) (hbefore : IsGap before) (has : lower asWord = "as".toList)
      (hbehind : IsGap behind) (hlabel : IsLineRest label) :
      ParticipantLine (keyword ++ (gap ++ (id ++ (before ++ (asWord ++ (behind ++ label)))))) id (some (trim label))

namespace Statement

/-- The two keywords are tried in turn, and neither is the start of the other,
    so the order does not matter: what is left follows whichever of them is
    there. -/
theorem afterParticipantKeyword_eq_some_iff {s rest : List Char} :
    (afterAnyCase? "participant".toList s <|> afterAnyCase? "actor".toList s) = some rest ↔
      ∃ keyword, keyword ++ rest = s ∧ IsParticipantKeyword keyword := by
  have hlower : lower "participant".toList = "participant".toList ∧ lower "actor".toList = "actor".toList := by
    decide
  simp only [Option.orElse_eq_orElse, Option.orElse_eq_or, Option.or_eq_some_iff, afterAnyCase?_eq_some_iff,
    hlower]
  constructor
  · rintro (⟨keyword, hs, hkeyword⟩ | ⟨-, keyword, hs, hkeyword⟩)
    · exact ⟨keyword, hs, .inl hkeyword⟩
    · exact ⟨keyword, hs, .inr hkeyword⟩
  · rintro ⟨keyword, rfl, hkeyword | hkeyword⟩
    · exact .inl ⟨keyword, rfl, hkeyword⟩
    · refine .inr ⟨?_, keyword, rfl, hkeyword⟩
      cases keyword with
      | nil => cases hkeyword
      | cons c keyword =>
        have hc : c.toLower = 'a' := (List.cons.inj hkeyword).1
        rw [List.cons_append]
        simp [afterAnyCase?, hc]

/-- What is read as a participant is the line of one. Without a label in the
    line the id is the label. -/
theorem exists_participantLine (h : participant? line = some (id, label)) :
    ∃ given, ParticipantLine line id given ∧ label = given.getD id := by
  unfold participant? at h
  simp only [Option.bind_eq_bind, Option.bind_eq_some_iff, afterParticipantKeyword_eq_some_iff,
    skipSpaces?_eq_some_iff] at h
  obtain ⟨_, ⟨keyword, rfl, hkeyword⟩, _, ⟨gap, rfl, hgap, -⟩, ⟨word, rest⟩, hword, h⟩ := h
  obtain ⟨rfl, hid, -⟩ := word?_eq_some_iff.mp hword
  dsimp only at h
  split at h
  · obtain ⟨rfl, rfl⟩ := Prod.mk.inj (Option.some.inj h)
    rw [List.append_nil]
    exact ⟨none, .unlabelled hkeyword hgap hid, rfl⟩
  · simp only [Option.bind_eq_some_iff, skipSpaces?_eq_some_iff, afterAnyCase?_eq_some_iff,
      restOfLine_eq_some_iff, Option.pure_def, Option.some.injEq, Prod.mk.injEq] at h
    obtain ⟨_, ⟨before, rfl, hbefore, -⟩, _, ⟨asWord, rfl, has⟩, text,
      ⟨behind, rfl, hleast, hbehind, htext⟩, rfl,
      rfl⟩ := h
    have hne : behind ≠ [] := List.length_pos_iff.mp hleast
    exact ⟨_, .labelled hkeyword hgap hid hbefore (has.trans (by decide)) ⟨hne, hbehind⟩ htext, rfl⟩

/-- The id of a participant that is read is a word. -/
theorem isWord_of_participant? (h : participant? line = some (id, label)) : IsWord id := by
  obtain ⟨given, hline, -⟩ := exists_participantLine h
  cases hline with
  | unlabelled _ _ hid => exact hid
  | labelled _ _ hid => exact hid

/-- What is behind the id decides whether there is a label: nothing there is a
    line without one, and otherwise `as` has to follow behind white space. -/
theorem participant?_append {keyword gap rest : List Char} (hkeyword : IsParticipantKeyword keyword)
    (hgap : IsGap gap) (hid : IsWord id) (hrest : ∀ c ∈ rest.head?, isWordChar c = false) :
    participant? (keyword ++ (gap ++ (id ++ rest))) =
      if rest = [] then some (id, id)
      else (skipSpaces? rest).bind fun s => (afterAnyCase? "as".toList s).bind fun s =>
        (restOfLine 1 s).map fun label => (id, trim label) := by
  have hafter : (afterAnyCase? "participant".toList (keyword ++ (gap ++ (id ++ rest))) <|>
      afterAnyCase? "actor".toList (keyword ++ (gap ++ (id ++ rest)))) = some (gap ++ (id ++ rest)) :=
    afterParticipantKeyword_eq_some_iff.mpr ⟨keyword, rfl, hkeyword⟩
  have hskip : skipSpaces? (gap ++ (id ++ rest)) = some (id ++ rest) :=
    skipSpaces?_eq_some_iff.mpr ⟨gap, rfl, hgap, hid.head?_append rest⟩
  have hword : word? (id ++ rest) = some (id, rest) := word?_eq_some_iff.mpr ⟨rfl, hid, hrest⟩
  simp only [participant?, hafter, hskip, hword, Option.bind_eq_bind, Option.bind_some]
  cases rest with
  | nil => rfl
  | cons c rest =>
    rw [if_neg (List.cons_ne_nil c rest)]
    simp only [Option.map_eq_bind]
    rfl

/-- The line of a participant is read as that participant. The id and the label
    are found where the line has them, since a gap ends each of the parts before
    them. -/
theorem participant?_of_participantLine {given : Option (List Char)} (h : ParticipantLine line id given) :
    participant? line = some (id, given.getD id) := by
  cases h with
  | @unlabelled keyword gap id hkeyword hgap hid =>
    have hend : ∀ c ∈ ([] : List Char).head?, isWordChar c = false := by simp
    have hread := participant?_append hkeyword hgap hid hend
    rw [List.append_nil, if_pos rfl] at hread
    exact hread
  | @labelled keyword gap id before asWord behind label hkeyword hgap hid hbefore has hbehind hlabel =>
    have hword : IsWord asWord := by
      have hkeyword : "as".toList.all fun c => isWordChar c.toLower := by decide
      refine ⟨?_, forall_isWordChar_of_lower_eq hkeyword (has.trans (by decide))⟩
      rintro rfl
      cases has
    have hskip : skipSpaces? (before ++ (asWord ++ (behind ++ label))) = some (asWord ++ (behind ++ label)) :=
      skipSpaces?_eq_some_iff.mpr ⟨before, rfl, hbefore, hword.head?_append _⟩
    have hafter : afterAnyCase? "as".toList (asWord ++ (behind ++ label)) = some (behind ++ label) :=
      afterAnyCase?_eq_some_iff.mpr ⟨asWord, rfl, has.trans (by decide)⟩
    have hrest : restOfLine 1 (behind ++ label) = some label :=
      restOfLine_append (List.length_pos_iff.mpr hbehind.1) hbehind.2 hlabel
    rw [participant?_append hkeyword hgap hid (hbefore.head?_append _), if_neg (by simp [hbefore.1]), hskip,
      Option.bind_some, hafter, Option.bind_some, hrest]
    rfl

/-- The line of a participant starts with one of two letters, in either case. -/
theorem exists_cons_of_participantLine {given : Option (List Char)} (h : ParticipantLine line id given) :
    ∃ c rest, line = c :: rest ∧ (c.toLower = 'p' ∨ c.toLower = 'a') := by
  obtain ⟨keyword, rest, hkeyword, hline⟩ :
      ∃ keyword rest, IsParticipantKeyword keyword ∧ line = keyword ++ rest := by
    cases h with
    | unlabelled hkeyword => exact ⟨_, _, hkeyword, rfl⟩
    | labelled hkeyword => exact ⟨_, _, hkeyword, rfl⟩
  cases keyword with
  | nil => rcases hkeyword with hnil | hnil <;> cases hnil
  | cons c keyword =>
    refine ⟨c, keyword ++ rest, hline, ?_⟩
    exact hkeyword.imp (fun h => (List.cons.inj h).1) fun h => (List.cons.inj h).1

/-- A line states a participant just when it is the line of that participant.
    Without a label the id is the label. The line of a participant is of no
    other form, so what it declares is what it states. -/
theorem ofLine?_eq_participant_iff {id label : String} : ofLine? line = some (.participant id label) ↔
    ∃ given, ParticipantLine (trim line) id.toList given ∧ label = String.ofList (given.getD id.toList) := by
  constructor
  · intro h
    obtain ⟨_, _, h⟩ | ⟨id, label, hread, h⟩ | ⟨_, _, _, h⟩ | ⟨_, _, h⟩ := cases_of_ofLine? h
    all_goals cases h
    obtain ⟨given, hline, rfl⟩ := exists_participantLine hread
    exact ⟨given, by simpa using hline, by simp⟩
  · rintro ⟨given, hline, rfl⟩
    obtain ⟨c, rest, hcons, hc⟩ := exists_cons_of_participantLine hline
    have htitle : title? (trim line) = none := by
      rw [hcons, title?]
      rcases hc with hc | hc <;> simp [afterAnyCase?, hc]
    have hcomment : (trim line).head? ≠ some '#' := by
      rw [hcons]
      rintro ⟨⟩
      rcases hc with hc | hc <;> exact absurd hc (by decide)
    rw [ofLine?]
    simp [hcomment, htitle, participant?_of_participantLine hline]

end Statement

end Sequence

end LiveDiagram
