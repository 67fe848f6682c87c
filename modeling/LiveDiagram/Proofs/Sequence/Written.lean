import LiveDiagram.Proofs.Sequence.ParticipantLine
import LiveDiagram.Proofs.Sequence.Stated
import LiveDiagram.Proofs.Source.Statements
import LiveDiagram.Proofs.Text.Forms

namespace LiveDiagram

open Text

namespace Sequence

section Lines

def titleLine (title : String) : List Char :=
  "title".toList ++ ' ' :: title.toList

def participantLine (p : Participant) : List Char :=
  "participant".toList ++ ' ' :: (p.id.toList ++ ' ' :: ("as".toList ++ ' ' :: p.label.toList))

def arrowText : MessageStyle → List Char
  | .solid => ['-', '>']
  | .dashed => ['-', '-', '>']
  | .async => ['-', '>', '>']

/-- The line of a message. Its source may be a keyword, since the arrow follows
    it without white space. -/
def messageLine (m : Message) : List Char :=
  m.source.toList ++ (arrowText m.style ++ (m.target.toList ++ ':' :: ' ' :: m.text.toList))

/-- The ids of the participants of a note, separated by commas. -/
def idsText (n : Note) : List Char :=
  List.intercalate [','] (n.participants.map String.toList)

def noteLine (n : Note) : List Char :=
  "note".toList ++ ' ' :: ("over".toList ++ ' ' :: (idsText n ++ ':' :: ' ' :: n.text.toList))

/-- The lines of a sequence diagram, of which the first says that it is one. -/
def toLines (d : Sequence) : List (List Char) :=
  "sequence".toList :: ((if d.title = "" then [] else [titleLine d.title])
    ++ d.participants.map participantLine ++ d.messages.map messageLine ++ d.notes.map noteLine)

/-- The text of a sequence diagram. -/
def toText (d : Sequence) : String :=
  String.ofList (joinLines d.toLines)

end Lines

/-- A text that may stand at the end of a line: it has no line break, starts
    with no white space and does not end in a blank. -/
structure IsPhrase (s : List Char) : Prop where
  ne_nil : s ≠ []
  noBreak : ∀ c ∈ s, isLineBreak c = false
  head : ∀ c ∈ s.head?, isSpace c = false
  last : ∀ c ∈ s.getLast?, isBlank c = false

/-- Whether a text is a phrase can be found out by looking at its characters. -/
theorem isPhrase_iff {s : List Char} : IsPhrase s ↔ s ≠ [] ∧ s.any isLineBreak = false ∧
    s.head?.any isSpace = false ∧ s.getLast?.any isBlank = false := by
  simp only [List.any_eq_false, Option.any_eq_false, Bool.not_eq_true]
  exact ⟨fun h => ⟨h.ne_nil, h.noBreak, h.head, h.last⟩, fun h => ⟨h.1, h.2.1, h.2.2.1, h.2.2.2⟩⟩

instance (s : List Char) : Decidable (IsPhrase s) :=
  decidable_of_iff _ isPhrase_iff.symm

/-- A sequence diagram that its text states. -/
structure Writable (d : Sequence) : Prop where
  ids : ∀ id ∈ d.participantIds, IsWord id.toList
  nodup : d.participantIds.Nodup
  title : d.title = "" ∨ IsPhrase d.title.toList
  labels : ∀ p ∈ d.participants, IsPhrase p.label.toList
  ends : ∀ m ∈ d.messages, m.source ∈ d.participantIds ∧ m.target ∈ d.participantIds
  messageTexts : ∀ m ∈ d.messages, IsPhrase m.text.toList
  noteIds : ∀ n ∈ d.notes, n.participants ≠ [] ∧ n.participants.Nodup ∧
    ∀ id ∈ n.participants, id ∈ d.participantIds
  noteTexts : ∀ n ∈ d.notes, IsPhrase n.text.toList

namespace IsPhrase

variable {s : List Char}

/-- A phrase is what a line may end in, and the reader takes all of it. -/
theorem isLineRest (h : IsPhrase s) : IsLineRest s := by
  refine ⟨?_, .inl h.head⟩
  rw [isFilledLine, Bool.and_eq_true, Bool.not_eq_true', Bool.not_eq_true', List.any_eq_false]
  exact ⟨List.isEmpty_eq_false_iff.mpr h.ne_nil, fun c hc => Bool.not_eq_true _ ▸ h.noBreak c hc⟩

/-- The phrase is what is left of a line behind a space, of which nothing is
    given back to it. -/
theorem restOfLine_cons {least : Nat} (h : IsPhrase s) (hleast : least ≤ 1) :
    restOfLine least (' ' :: s) = some s :=
  restOfLine_eq_some_iff.mpr ⟨[' '], rfl, hleast, isGap_space.2, h.isLineRest⟩

theorem trim_eq_self (h : IsPhrase s) : trim s = s :=
  Text.trim_eq_self (fun c hc => isBlank_eq_false_of_isSpace (h.head c hc)) h.last

theorem newline_not_mem (h : IsPhrase s) : '\n' ∉ s := fun hmem =>
  absurd (h.noBreak _ hmem) (by decide)

/-- A line that starts with a word character and ends in a phrase is a statement
    as it stands. It holds no line feed before the phrase either. -/
theorem isStatement {line : List Char} (h : IsPhrase s) (hsuffix : s <:+ line) (hhead : line.head?.any isWordChar)
    (hbreak : '\n' ∉ line) : IsStatement line where
  noBreak := hbreak
  head := hhead
  last := by
    obtain ⟨start, rfl⟩ := hsuffix
    rw [List.getLast?_append_of_ne_nil start h.ne_nil]
    exact h.last

end IsPhrase

namespace Statement

/-- What a line states that is a statement as it stands: the four forms are
    tried on the line itself, since trimming leaves it alone and it is no
    comment. -/
theorem ofLine?_of_isStatement {line : List Char} (h : IsStatement line) : ofLine? line =
    ((title? line).map (fun text => title (String.ofList text))
      <|> (participant? line).map (fun (id, label) => participant (String.ofList id) (String.ofList label))
      <|> (note? line).map (fun (ids, text) => note (ids.map String.ofList) (String.ofList text))
      <|> (message? line).map message) := by
  rw [ofLine?, h.trim_eq_self]
  exact if_neg (h.head?_ne (by decide))

end Statement

section Title

variable {title : String}

theorem isStatement_titleLine (h : IsPhrase title.toList) : IsStatement (titleLine title) := by
  refine h.isStatement ((List.suffix_cons ' ' _).trans (List.suffix_append _ _)) rfl ?_
  simp only [titleLine, List.mem_append, List.mem_cons, not_or]
  exact ⟨by decide, by decide, h.newline_not_mem⟩

/-- The line of a title states that title. -/
theorem ofLine?_titleLine (h : IsPhrase title.toList) :
    Statement.ofLine? (titleLine title) = some (.title title) := by
  have hkeyword : afterAnyCase? "title".toList (titleLine title) = some (' ' :: title.toList) :=
    afterAnyCase?_eq_some_iff.mpr ⟨"title".toList, rfl, rfl⟩
  have hread : Statement.title? (titleLine title) = some title.toList := by
    rw [Statement.title?, hkeyword, Option.bind_eq_bind, Option.bind_some, h.restOfLine_cons le_rfl,
      Option.bind_some,
      h.trim_eq_self]
    rfl
  rw [Statement.ofLine?_of_isStatement (isStatement_titleLine h), hread]
  simp

end Title

section Participants

variable {p : Participant}

/-- The line of a participant is a statement as it stands. -/
theorem isStatement_participantLine (hid : IsWord p.id.toList) (hlabel : IsPhrase p.label.toList) :
    IsStatement (participantLine p) := by
  unfold participantLine
  refine hlabel.isStatement ?_ rfl ?_
  · refine ⟨"participant".toList ++ ' ' :: (p.id.toList ++ ' ' :: ("as".toList ++ [' '])), ?_⟩
    simp only [List.append_assoc, List.cons_append, List.nil_append]
  · simp only [List.mem_append, List.mem_cons, not_or]
    exact ⟨by decide, by decide, hid.not_mem (by decide), by decide, by decide, by decide, hlabel.newline_not_mem⟩

/-- The line of a participant states it with its label, which may be any phrase,
    also one that starts with `as`. -/
theorem ofLine?_participantLine (hid : IsWord p.id.toList) (hlabel : IsPhrase p.label.toList) :
    Statement.ofLine? (participantLine p) = some (.participant p.id p.label) := by
  have hkeyword : IsParticipantKeyword "participant".toList := .inl (by decide)
  have has : lower "as".toList = "as".toList := by decide
  have hline : ParticipantLine (participantLine p) p.id.toList (some (trim p.label.toList)) :=
    .labelled hkeyword isGap_space hid isGap_space has isGap_space hlabel.isLineRest
  have htrim := (isStatement_participantLine hid hlabel).trim_eq_self
  refine Statement.ofLine?_eq_participant_iff.mpr ⟨some (trim p.label.toList), htrim.symm ▸ hline, ?_⟩
  rw [Option.getD_some, hlabel.trim_eq_self, String.ofList_toList]

end Participants

section Keywords

variable {source tail : List Char} {c : Char}

/-- No keyword with white space behind it is at the head of a line in which the
    first word is followed by something else. -/
theorem ne_of_isGap {keyword gap rest : List Char} (hkeyword : ∀ d ∈ keyword, isWordChar d) (hgap : IsGap gap)
    (hsource : ∀ d ∈ source, isWordChar d) (hword : isWordChar c = false) (hspace : isSpace c = false) :
    keyword ++ (gap ++ rest) ≠ source ++ c :: tail := by
  intro heq
  have hbehind : gap ++ rest = c :: tail := by
    have hdrop := congrArg (List.dropWhile isWordChar) heq
    rwa [dropWhile_append_eq_right hkeyword (hgap.head?_append rest),
      dropWhile_append_eq_right hsource (forall_mem_head?_cons hword tail)] at hdrop
  obtain ⟨d, gap, rfl⟩ := List.exists_cons_of_ne_nil hgap.1
  obtain ⟨rfl, -⟩ := List.cons.inj hbehind
  exact Bool.false_ne_true (hspace.symm.trans (hgap.2 d List.mem_cons_self))

variable (hsource : ∀ d ∈ source, isWordChar d) (hword : isWordChar c = false) (hspace : isSpace c = false)

include hsource hword hspace

/-- A line in which something else than white space follows the first word
    states no title. -/
theorem title?_eq_none : Statement.title? (source ++ c :: tail) = none := by
  rw [Option.eq_none_iff_forall_ne_some]
  intro text h
  unfold Statement.title? at h
  simp only [Option.bind_eq_bind, Option.bind_eq_some_iff, afterAnyCase?_eq_some_iff, restOfLine_eq_some_iff] at h
  obtain ⟨_, ⟨keyword, heq, hlower⟩, text, ⟨gap, rfl, hleast, hgap, -⟩, -⟩ := h
  have hkeyword : ∀ d ∈ keyword, isWordChar d := forall_isWordChar_of_lower_eq (by decide) hlower
  exact ne_of_isGap hkeyword ⟨List.length_pos_iff.mp hleast, hgap⟩ hsource hword hspace heq

/-- A line in which something else than white space follows the first word
    declares no participant. -/
theorem participant?_eq_none : Statement.participant? (source ++ c :: tail) = none := by
  rw [Option.eq_none_iff_forall_ne_some]
  rintro ⟨id, label⟩ h
  unfold Statement.participant? at h
  simp only [Option.bind_eq_bind, Option.bind_eq_some_iff, Statement.afterParticipantKeyword_eq_some_iff,
    skipSpaces?_eq_some_iff] at h
  obtain ⟨_, ⟨keyword, heq, hlower⟩, _, ⟨gap, rfl, hgap, -⟩, -⟩ := h
  have hkeyword : ∀ d ∈ keyword, isWordChar d := by
    rcases hlower with hlower | hlower
    · have hparticipant : "participant".toList.all fun d => isWordChar d.toLower := by decide
      exact forall_isWordChar_of_lower_eq hparticipant (hlower.trans (by decide))
    · have hactor : "actor".toList.all fun d => isWordChar d.toLower := by decide
      exact forall_isWordChar_of_lower_eq hactor (hlower.trans (by decide))
  exact ne_of_isGap hkeyword hgap hsource hword hspace heq

/-- A line in which something else than white space follows the first word
    states no note. -/
theorem note?_eq_none : Statement.note? (source ++ c :: tail) = none := by
  rw [Option.eq_none_iff_forall_ne_some]
  rintro ⟨ids, text⟩ h
  unfold Statement.note? at h
  simp only [Option.bind_eq_bind, Option.bind_eq_some_iff, afterAnyCase?_eq_some_iff, skipSpaces?_eq_some_iff] at h
  obtain ⟨_, ⟨keyword, heq, hlower⟩, _, ⟨gap, rfl, hgap, -⟩, -⟩ := h
  have hkeyword : ∀ d ∈ keyword, isWordChar d := forall_isWordChar_of_lower_eq (by decide) hlower
  exact ne_of_isGap hkeyword hgap hsource hword hspace heq

end Keywords

section Messages

variable {m : Message}

/-- The line of a message is a statement as it stands. -/
theorem isStatement_messageLine (hsource : IsWord m.source.toList) (htarget : IsWord m.target.toList)
    (htext : IsPhrase m.text.toList) : IsStatement (messageLine m) := by
  have hsuffix : m.text.toList <:+ messageLine m := by
    refine ⟨m.source.toList ++ (arrowText m.style ++ (m.target.toList ++ [':', ' '])), ?_⟩
    simp only [messageLine, List.append_assoc, List.cons_append, List.nil_append]
  have hhead : (messageLine m).head?.any isWordChar := by
    obtain ⟨c, rest, hcons, hc⟩ := hsource.exists_cons
    rw [messageLine, hcons]
    exact hc
  have harrow : '\n' ∉ arrowText m.style := by cases m.style <;> decide
  refine htext.isStatement hsuffix hhead ?_
  simp only [messageLine, List.mem_append, List.mem_cons, not_or]
  exact ⟨hsource.not_mem (by decide), harrow, htarget.not_mem (by decide), by decide, by decide,
    htext.newline_not_mem⟩

/-- The arrow of a style is read as that style in front of a word, which does
    not go on the arrow. -/
theorem arrow?_arrowText {target : List Char} (htarget : IsWord target) (style : MessageStyle) (rest : List Char) :
    Statement.arrow? (arrowText style ++ (target ++ rest)) = some (style, target ++ rest) := by
  obtain ⟨c, target, rfl, hc⟩ := htarget.exists_cons
  have hne : c ≠ '>' := by
    rintro rfl
    exact absurd hc (by decide)
  cases style with
  | solid => simp [arrowText, Statement.arrow?, hne]
  | dashed => simp [arrowText, Statement.arrow?, hne]
  | async => rfl

/-- The line of a message is read as that message. Its text may hold colons and
    arrows, since the source and the target are words and come before. -/
theorem message?_messageLine (hsource : IsWord m.source.toList) (htarget : IsWord m.target.toList)
    (htext : IsPhrase m.text.toList) : Statement.message? (messageLine m) = some m := by
  have harrow : ∀ s, ∀ c ∈ (arrowText m.style ++ s).head?, isWordChar c = false ∧ isSpace c = false := by
    intro s
    cases m.style
    all_goals exact forall_mem_head?_cons (by decide) _
  have hsourceWord := fun s => word?_append hsource.1 hsource.2 fun c hc => (harrow s c hc).1
  have harrowSkip := fun s => skipSpaces_of_head? fun c hc => (harrow s c hc).2
  have htargetWord := word?_append (t := ':' :: ' ' :: m.text.toList) htarget.1 htarget.2
    (forall_mem_head?_cons (by decide) _)
  have htargetSkip := skipSpaces_of_head? (htarget.head?_append (':' :: ' ' :: m.text.toList))
  have hcolon : after? [':'] (skipSpaces (':' :: ' ' :: m.text.toList)) = some (' ' :: m.text.toList) := rfl
  have hrest := htext.restOfLine_cons (Nat.zero_le 1)
  simp only [Statement.message?, messageLine, hsourceWord, harrowSkip, arrow?_arrowText htarget, htargetSkip,
    htargetWord, hcolon, hrest, htext.trim_eq_self, Option.bind_eq_bind, Option.bind_some, String.ofList_toList]
  rfl

/-- The line of a message states it. The forms that are tried before need white
    space behind the first word, and here an arrow follows it. -/
theorem ofLine?_messageLine (hsource : IsWord m.source.toList) (htarget : IsWord m.target.toList)
    (htext : IsPhrase m.text.toList) : Statement.ofLine? (messageLine m) = some (.message m) := by
  obtain ⟨tail, hline⟩ : ∃ tail, messageLine m = m.source.toList ++ '-' :: tail := by
    rw [messageLine]
    cases m.style
    all_goals exact ⟨_, rfl⟩
  have hread := message?_messageLine hsource htarget htext
  rw [Statement.ofLine?_of_isStatement (isStatement_messageLine hsource htarget htext), hread, hline,
    title?_eq_none hsource.2 (by decide) (by decide), participant?_eq_none hsource.2 (by decide) (by decide),
    note?_eq_none hsource.2 (by decide) (by decide)]
  rfl

end Messages

section Notes

variable {n : Note}

/-- The list of ids of a note starts with a word character. -/
theorem exists_cons_idsText (hne : n.participants ≠ []) (hids : ∀ id ∈ n.participants, IsWord id.toList) :
    ∃ c rest, idsText n = c :: rest ∧ isWordChar c := by
  refine intercalate_induction (P := fun s => ∃ c rest, s = c :: rest ∧ isWordChar c)
    (List.map_eq_nil_iff.not.mpr hne) ?_ ?_
  · intro part hpart
    obtain ⟨id, hid, rfl⟩ := List.mem_map.mp hpart
    exact (hids id hid).exists_cons
  · rintro _ t ⟨c, rest, rfl, hc⟩ -
    exact ⟨c, rest ++ [','] ++ t, rfl, hc⟩

/-- Nothing but word characters and commas stands in the list of ids of a
    note. -/
theorem forall_mem_idsText (hne : n.participants ≠ []) (hids : ∀ id ∈ n.participants, IsWord id.toList) :
    ∀ c ∈ idsText n, isWordChar c ∨ c = ',' := by
  refine intercalate_induction (P := fun s => ∀ c ∈ s, isWordChar c ∨ c = ',')
    (List.map_eq_nil_iff.not.mpr hne) ?_ ?_
  · intro part hpart c hc
    obtain ⟨id, hid, rfl⟩ := List.mem_map.mp hpart
    exact .inl ((hids id hid).2 c hc)
  · intro s t hs ht
    have hcomma : ∀ c ∈ [','], isWordChar c ∨ c = ',' := fun c hc => .inr (List.mem_singleton.mp hc)
    exact List.forall_mem_append.mpr ⟨List.forall_mem_append.mpr ⟨hs, hcomma⟩, ht⟩

/-- The ids of a note are taken apart at the commas, of which none stands in an
    id. They are distinct, so none is lost. -/
theorem distinctIds_idsText (hne : n.participants ≠ []) (hnodup : n.participants.Nodup)
    (hids : ∀ id ∈ n.participants, IsWord id.toList) :
    Statement.distinctIds (idsText n) = n.participants.map String.toList := by
  have hwords : ∀ word ∈ n.participants.map String.toList, IsWord word := by
    intro word hword
    obtain ⟨id, hid, rfl⟩ := List.mem_map.mp hword
    exact hids id hid
  have hcomma : ∀ word ∈ n.participants.map String.toList, ',' ∉ word := fun word hword =>
    (hwords word hword).not_mem (by decide)
  have htrim : ∀ word ∈ n.participants.map String.toList, trim word = word := fun word hword =>
    (hwords word hword).trim_eq_self
  have hfilled : ∀ word ∈ n.participants.map String.toList, (!word.isEmpty) = true := fun word hword => by
    simp [(hwords word hword).1]
  rw [Statement.distinctIds_eq, splitOn_eq, idsText,
    List.splitOn_intercalate ',' hcomma (List.map_eq_nil_iff.not.mpr hne), List.map_congr_left htrim, List.map_id',
    List.filter_eq_self.mpr hfilled, eraseDups_eq_self (hnodup.map fun _ _ => String.toList_injective)]

/-- The line of a note is a statement as it stands. -/
theorem isStatement_noteLine (hne : n.participants ≠ []) (hids : ∀ id ∈ n.participants, IsWord id.toList)
    (htext : IsPhrase n.text.toList) : IsStatement (noteLine n) := by
  have hlisted : '\n' ∉ idsText n := fun hmem =>
    absurd (forall_mem_idsText hne hids _ hmem) (by decide)
  unfold noteLine
  refine htext.isStatement ?_ rfl ?_
  · refine ⟨"note".toList ++ ' ' :: ("over".toList ++ ' ' :: (idsText n ++ [':', ' '])), ?_⟩
    simp only [List.append_assoc, List.cons_append, List.nil_append]
  · simp only [List.mem_append, List.mem_cons, not_or]
    exact ⟨by decide, by decide, by decide, by decide, hlisted, by decide, by decide, htext.newline_not_mem⟩

/-- The list of ids is read up to the colon, which stands in no id. -/
theorem idList?_idsText (hne : n.participants ≠ []) (hids : ∀ id ∈ n.participants, IsWord id.toList)
    (rest : List Char) : Statement.idList? (' ' :: (idsText n ++ ':' :: rest)) = some (idsText n, rest) := by
  obtain ⟨c, ids, hcons, hc⟩ := exists_cons_idsText hne hids
  have hhead : ∀ d ∈ (idsText n).head?, isSpace d = false := by
    rw [hcons]
    exact forall_mem_head?_cons (isSpace_eq_false_of_isWordChar hc) _
  have hchars : ∀ d ∈ ' ' :: idsText n, Statement.isIdListChar d := by
    refine List.forall_mem_cons.mpr ⟨by decide, fun d hd => ?_⟩
    rcases forall_mem_idsText hne hids d hd with hword | rfl
    · simp [Statement.isIdListChar, hword]
    · rfl
  have hcolon : ∀ d ∈ (':' :: rest).head?, Statement.isIdListChar d = false := forall_mem_head?_cons (by decide) _
  have hgap : afterSpaces 1 (fun part => !part.isEmpty) (' ' :: idsText n) = some (idsText n) :=
    afterSpaces_cons (by decide) hhead (by simp [hcons])
  rw [← List.cons_append, Statement.idList?, takeWhile_append_eq_left hchars hcolon, hgap,
    dropWhile_append_eq_right hchars hcolon]
  rfl

/-- The line of a note is read as that note. It has to have a participant, since
    a list without ids is no list. -/
theorem note?_noteLine (hne : n.participants ≠ []) (hnodup : n.participants.Nodup)
    (hids : ∀ id ∈ n.participants, IsWord id.toList) (htext : IsPhrase n.text.toList) :
    Statement.note? (noteLine n) = some (n.participants.map String.toList, n.text.toList) := by
  have hnote : afterAnyCase? "note".toList (noteLine n) =
      some (' ' :: ("over".toList ++ ' ' :: (idsText n ++ ':' :: ' ' :: n.text.toList))) :=
    afterAnyCase?_eq_some_iff.mpr ⟨"note".toList, rfl, rfl⟩
  have hskip : skipSpaces? (' ' :: ("over".toList ++ ' ' :: (idsText n ++ ':' :: ' ' :: n.text.toList))) =
      some ("over".toList ++ ' ' :: (idsText n ++ ':' :: ' ' :: n.text.toList)) :=
    skipSpaces?_cons (by decide) (forall_mem_head?_cons (by decide) _)
  have hover : afterAnyCase? "over".toList ("over".toList ++ ' ' :: (idsText n ++ ':' :: ' ' :: n.text.toList)) =
      some (' ' :: (idsText n ++ ':' :: ' ' :: n.text.toList)) :=
    afterAnyCase?_eq_some_iff.mpr ⟨"over".toList, rfl, rfl⟩
  have hrest := htext.restOfLine_cons (Nat.zero_le 1)
  simp only [Statement.note?, hnote, hskip, hover, idList?_idsText hne hids, hrest,
    distinctIds_idsText hne hnodup hids, htext.trim_eq_self, Option.bind_eq_bind, Option.bind_some]
  rfl

theorem ofLine?_noteLine (hne : n.participants ≠ []) (hnodup : n.participants.Nodup)
    (hids : ∀ id ∈ n.participants, IsWord id.toList) (htext : IsPhrase n.text.toList) :
    Statement.ofLine? (noteLine n) = some (.note n.participants n.text) := by
  have htitle : Statement.title? (noteLine n) = none := rfl
  have hparticipant : Statement.participant? (noteLine n) = none := rfl
  rw [Statement.ofLine?_of_isStatement (isStatement_noteLine hne hids htext), htitle, hparticipant,
    note?_noteLine hne hnodup hids htext]
  simp

end Notes

end Sequence

end LiveDiagram
