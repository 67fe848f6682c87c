import LiveDiagram.Proofs.Flowchart.Reading
import LiveDiagram.Proofs.Text.Forms
import LiveDiagram.Proofs.Text.Inside

namespace LiveDiagram

open Text

variable {s t rest text : List Char}

namespace NodeRef

/-- The texts of a reference: a word, which a label in quotes and brackets or in
    brackets alone may follow. They are given by their form, and the reader of
    references finds just these. -/
inductive IsText : List Char → Prop where
  | word {id : List Char} (hid : IsWord id) : IsText id
  | quoted {id label : List Char} (hid : IsWord id) (hlabel : '"' ∉ label) :
    IsText (id ++ '[' :: '"' :: (label ++ ['"', ']']))
  | bracketed {id label : List Char} (hid : IsWord id) (hlabel : ']' ∉ label) :
    IsText (id ++ '[' :: (label ++ [']']))

variable {r : NodeRef}

/-- A label in brackets is what stands before the first closing one, whatever
    follows that. -/
theorem bracketLabel?_append {label : List Char} (hlabel : ']' ∉ label) (rest : List Char) :
    bracketLabel? ('[' :: (label ++ ']' :: rest)) = some (label, rest) := by
  have hopened : after? ['['] ('[' :: (label ++ ']' :: rest)) = some (label ++ ']' :: rest) := after?_append ['['] _
  have hclosed : after? [']'] (']' :: rest) = some rest := after?_append [']'] rest
  rw [bracketLabel?, hopened, Option.bind_eq_bind, Option.bind_some,
    dropWhile_append_of_head? hlabel (by simp),
    takeWhile_append_of_head? hlabel (by simp), hclosed]
  rfl

/-- What is read as a label between two marks, and what is left, make up the
    text. The label does not hold the closing mark, since the first one closes
    it. -/
theorem append_of_label {opening closing label : List Char} {mark : Char}
    (h : ((after? opening s).bind fun s => (after? (mark :: closing) (s.dropWhile (· != mark))).bind fun rest =>
      some (s.takeWhile (· != mark), rest)) = some (label, rest)) :
    opening ++ (label ++ mark :: (closing ++ rest)) = s ∧ mark ∉ label := by
  simp only [Option.bind_eq_some_iff, Option.some.injEq, Prod.mk.injEq] at h
  obtain ⟨opened, hopened, closed, hclosed, rfl, rfl⟩ := h
  have hrest : mark :: (closing ++ closed) = opened.dropWhile (· != mark) := append_of_after? hclosed
  refine ⟨?_, fun hmem => ?_⟩
  · rw [hrest, List.takeWhile_append_dropWhile, append_of_after? hopened]
  · have hne := List.mem_takeWhile_imp hmem
    simp at hne

/-- Whichever way a reference is read, its text and what is left make up the
    text. -/
theorem exists_isText_of_mem_readings (h : (r, rest) ∈ readings s) :
    ∃ text, IsText text ∧ text ++ rest = s := by
  unfold readings at h
  split at h
  · cases h
  · rename_i id after hword
    obtain ⟨rfl, hid, -⟩ := word?_eq_some_iff.mp hword
    simp only [List.mem_append, Option.mem_toList, Option.map_eq_some_iff, List.mem_singleton,
      Prod.mk.injEq] at h
    obtain (⟨⟨label, left⟩, hlabel, -, rfl⟩ | ⟨⟨label, left⟩, hlabel, -, rfl⟩) | ⟨-, rfl⟩ := h
    · obtain ⟨rfl, hquote⟩ := append_of_label hlabel
      exact ⟨_, .quoted hid hquote, by simp⟩
    · obtain ⟨rfl, hbracket⟩ := append_of_label hlabel
      exact ⟨_, .bracketed hid hbracket, by simp⟩
    · exact ⟨id, .word hid, rfl⟩

/-- A text of a reference is read as one, if no word goes on behind it. It need
    not be the preferred reading. -/
theorem exists_mem_readings (h : IsText text) (hrest : ∀ c ∈ rest.head?, isWordChar c = false) :
    ∃ r, (r, rest) ∈ readings (text ++ rest) := by
  cases h with
  | @word id hid =>
    refine ⟨⟨text, none⟩, ?_⟩
    simp [readings, word?_append hid.1 hid.2 hrest]
  | @quoted id label hid hlabel =>
    have hread := quotedLabel?_append hlabel rest
    have hword := word?_append (t := '[' :: '"' :: (label ++ '"' :: ']' :: rest)) hid.1 hid.2
      (forall_mem_head?_cons (by decide) _)
    refine ⟨⟨id, some label⟩, ?_⟩
    simp [readings, hword, hread]
  | @bracketed id label hid hlabel =>
    have hread := bracketLabel?_append hlabel rest
    have hword := word?_append (t := '[' :: (label ++ ']' :: rest)) hid.1 hid.2
      (forall_mem_head?_cons (by decide) _)
    refine ⟨⟨id, some (unquote label)⟩, ?_⟩
    simp [readings, hword, hread]

/-- A reference is read wherever a word starts, since a label need not
    follow. -/
theorem read?_isSome (hs : IsWord s) (t : List Char) : (read? (s ++ t)).isSome := by
  obtain ⟨c, s, rfl, hc⟩ := hs.exists_cons
  have hword : word? (c :: s ++ t) ≠ none := by
    rw [word?, List.cons_append, List.takeWhile_cons_of_pos hc]
    simp
  obtain ⟨⟨id, rest⟩, hread⟩ := Option.ne_none_iff_exists'.mp hword
  rw [read?, readings, hread]
  simp

end NodeRef

namespace Flowchart

namespace Statement

section Forms

/-- The mark with white space around it, if any. -/
def Spaced (mark s : List Char) : Prop :=
  ∃ gap gap', (∀ c ∈ gap, isSpace c) ∧ (∀ c ∈ gap', isSpace c) ∧ s = gap ++ (mark ++ gap')

/-- The texts of an arrow with two heads. -/
def IsTwoHeaded (s : List Char) : Prop :=
  Spaced ['<', '-', '-', '>'] s

/-- The texts of an arrow with a label between its strokes. -/
def IsStroked (s : List Char) : Prop :=
  ∃ label, label ≠ [] ∧ '-' ∉ label ∧ Spaced (['-', '-'] ++ (label ++ ['-', '-', '>'])) s

/-- The texts of an arrow with a label between bars. -/
def IsBarred (s : List Char) : Prop :=
  ∃ gap label, (∀ c ∈ gap, isSpace c) ∧ '|' ∉ label ∧
    Spaced (['-', '-', '>'] ++ (gap ++ '|' :: (label ++ ['|']))) s

/-- Somewhere in the text a reference, an arrow and a word follow one
    another. -/
def Links (IsArrow : List Char → Prop) (s : List Char) : Prop :=
  ∃ source arrow target, NodeRef.IsText source ∧ IsArrow arrow ∧ IsWord target ∧
    source ++ (arrow ++ target) <:+: s

/-- The reader finds just the arrows of that form. -/
structure Reads (arrow : List Char → Option (List Char × List Char)) (IsArrow : List Char → Prop) : Prop where
  sound : ∀ {s label rest}, arrow s = some (label, rest) → ∃ text, IsArrow text ∧ text ++ rest = s
  complete : ∀ {text rest}, IsArrow text → (∀ c ∈ rest.head?, isSpace c = false) →
    ∃ label, arrow (text ++ rest) = some (label, rest)
  /-- No word goes on where an arrow starts. -/
  apart : ∀ {text}, IsArrow text → ∀ rest, ∀ c ∈ (text ++ rest).head?, isWordChar c = false

end Forms

section Readers

variable {mark : List Char}

/-- White space and a mark, and then the white space that the reader skips. -/
theorem spaced_of_append (h : mark ++ rest = skipSpaces s) :
    ∃ text, Spaced mark text ∧ text ++ skipSpaces rest = s := by
  refine ⟨_, ⟨s.takeWhile isSpace, rest.takeWhile isSpace, fun _ hc => List.mem_takeWhile_imp hc,
    fun _ hc => List.mem_takeWhile_imp hc, rfl⟩, ?_⟩
  rw [List.append_assoc, List.append_assoc, skipSpaces, List.takeWhile_append_dropWhile, h, skipSpaces,
    List.takeWhile_append_dropWhile]

/-- No word goes on where a mark with white space around it starts, if the mark
    itself starts with no word character. -/
theorem Spaced.head?_append (h : Spaced mark text) (hne : mark ≠ [])
    (hmark : ∀ c ∈ mark.head?, isWordChar c = false) (rest : List Char) :
    ∀ c ∈ (text ++ rest).head?, isWordChar c = false := by
  obtain ⟨gap, gap', hgap, -, rfl⟩ := h
  intro c hc
  cases gap with
  | nil =>
    obtain ⟨d, mark, rfl⟩ := List.exists_cons_of_ne_nil hne
    exact hmark c hc
  | cons d gap =>
    obtain rfl := Option.some.inj hc
    exact isWordChar_eq_false_of_isSpace (hgap d List.mem_cons_self)

/-- Behind white space a mark is read, if it starts with none. -/
theorem skipSpaces_append {gap : List Char} (hgap : ∀ c ∈ gap, isSpace c)
    (hs : ∀ c ∈ s.head?, isSpace c = false) : skipSpaces (gap ++ s) = s :=
  dropWhile_append_eq_right hgap hs

/-- A mark is read together with the white space around it, and nothing else is
    read so. This covers all arrows without a label. -/
theorem reads_mark {read : List Char → Option (List Char)} (hne : mark ≠ [])
    (hmark : ∀ c ∈ mark.head?, isWordChar c = false ∧ isSpace c = false)
    (hread : ∀ s, read s = (after? mark (skipSpaces s)).map skipSpaces) :
    Reads (fun s => (read s).map ([], ·)) (Spaced mark) where
  sound h := by
    obtain ⟨left, hleft, heq⟩ := Option.map_eq_some_iff.mp h
    obtain ⟨-, rfl⟩ := Prod.mk.inj heq
    rw [hread] at hleft
    obtain ⟨after, hafter, rfl⟩ := Option.map_eq_some_iff.mp hleft
    exact spaced_of_append (append_of_after? hafter)
  complete {_ rest} h hrest := by
    obtain ⟨gap, gap', hgap, hgap', rfl⟩ := h
    have hstart : ∀ c ∈ (mark ++ (gap' ++ rest)).head?, isSpace c = false := by
      obtain ⟨c, mark, rfl⟩ := List.exists_cons_of_ne_nil hne
      exact forall_mem_head?_cons (hmark c rfl).2 _
    refine ⟨[], ?_⟩
    rw [hread, List.append_assoc, List.append_assoc, skipSpaces_append hgap hstart, after?_append, Option.map_some,
      skipSpaces_append hgap' hrest, Option.map_some]
  apart h := h.head?_append hne fun c hc => (hmark c hc).1

theorem reads_twoHeaded : Reads (fun s => (afterTwoHeaded? s).map ([], ·)) IsTwoHeaded :=
  reads_mark (List.cons_ne_nil _ _) (forall_mem_head?_cons ⟨by decide, by decide⟩ _) fun s => by
    rw [afterTwoHeaded?]
    cases after? ['<', '-', '-', '>'] (skipSpaces s) <;> rfl

theorem reads_arrow : Reads (fun s => (afterArrow? s).map ([], ·)) (Spaced ['-', '-', '>']) :=
  reads_mark (List.cons_ne_nil _ _) (forall_mem_head?_cons ⟨by decide, by decide⟩ _) fun s => by
    rw [afterArrow?]
    cases after? ['-', '-', '>'] (skipSpaces s) <;> rfl

/-- The reader of arrows with a label between strokes finds just these. The
    label ends at the first hyphen, since it holds none. -/
theorem reads_stroke : Reads strokeArrow? IsStroked where
  sound {s _ _} h := by
    unfold strokeArrow? at h
    simp only [Option.bind_eq_bind, Option.bind_eq_some_iff] at h
    obtain ⟨opened, hopened, closed, hclosed, h⟩ := h
    split at h
    · cases h
    · rename_i hne
      simp only [Option.pure_def, Option.some.injEq, Prod.mk.injEq] at h
      obtain ⟨-, rfl⟩ := h
      have hhyphen : '-' ∉ opened.takeWhile (· != '-') := fun hmem => by
        have hne := List.mem_takeWhile_imp hmem
        simp at hne
      have hmark : (['-', '-'] ++ (opened.takeWhile (· != '-') ++ ['-', '-', '>'])) ++ closed = skipSpaces s := by
        rw [List.append_assoc, List.append_assoc, append_of_after? hclosed, List.takeWhile_append_dropWhile,
          append_of_after? hopened]
      obtain ⟨text, htext, heq⟩ := spaced_of_append hmark
      exact ⟨text, ⟨_, by simpa using hne, hhyphen, htext⟩, heq⟩
  complete {_ rest} h hrest := by
    obtain ⟨label, hne, hlabel, gap, gap', hgap, hgap', rfl⟩ := h
    have hend : ∀ d ∈ (['-', '-', '>'] ++ (gap' ++ rest)).head?, d = '-' := by simp
    have hskip : skipSpaces (gap ++ (['-', '-'] ++ (label ++ ['-', '-', '>']) ++ gap') ++ rest) =
        ['-', '-'] ++ (label ++ (['-', '-', '>'] ++ (gap' ++ rest))) := by
      simp only [List.append_assoc]
      exact skipSpaces_append hgap (forall_mem_head?_cons (by decide) _)
    refine ⟨trim (strokeLabel label), ?_⟩
    rw [strokeArrow?, hskip, after?_append, Option.bind_eq_bind, Option.bind_some,
      dropWhile_append_of_head? hlabel hend, takeWhile_append_of_head? hlabel hend, after?_append, Option.bind_some,
      skipSpaces_append hgap' hrest]
    exact if_neg (by simpa using hne)
  apart h := by
    obtain ⟨label, -, -, hspaced⟩ := h
    exact hspaced.head?_append (List.cons_ne_nil _ _) (forall_mem_head?_cons (by decide) _)

/-- The reader of arrows with a label between bars finds just these. White space
    may stand between the arrow and the first bar. -/
theorem reads_bar : Reads barArrow? IsBarred where
  sound {s _ _} h := by
    unfold barArrow? afterArrow? at h
    simp only [Option.bind_eq_bind, Option.bind_eq_some_iff, Option.pure_def, Option.some.injEq,
      Prod.mk.injEq] at h
    obtain ⟨_, ⟨headed, hheaded, rfl⟩, opened, hopened, closed, hclosed, -, rfl⟩ := h
    have hbar : '|' ∉ opened.takeWhile (· != '|') := fun hmem => by
      have hne := List.mem_takeWhile_imp hmem
      simp at hne
    have hmark : (['-', '-', '>'] ++ (headed.takeWhile isSpace ++ '|' :: (opened.takeWhile (· != '|') ++ ['|'])))
        ++ closed = skipSpaces s := by
      have hlabel : opened.takeWhile (· != '|') ++ '|' :: closed = opened := by
        rw [← List.singleton_append, append_of_after? hclosed, List.takeWhile_append_dropWhile]
      have hopening : '|' :: opened = skipSpaces headed := append_of_after? hopened
      simp only [List.append_assoc, List.cons_append, List.nil_append]
      rw [hlabel, hopening, skipSpaces, List.takeWhile_append_dropWhile]
      exact append_of_after? hheaded
    obtain ⟨text, htext, heq⟩ := spaced_of_append hmark
    exact ⟨text, ⟨_, _, fun _ hc => List.mem_takeWhile_imp hc, hbar, htext⟩, heq⟩
  complete {_ rest} h hrest := by
    obtain ⟨between, label, hbetween, hlabel, gap, gap', hgap, hgap', rfl⟩ := h
    have hend : ∀ d ∈ (['|'] ++ (gap' ++ rest)).head?, d = '|' := by simp
    have hskip : skipSpaces (gap ++ (['-', '-', '>'] ++ (between ++ '|' :: (label ++ ['|'])) ++ gap') ++ rest) =
        ['-', '-', '>'] ++ (between ++ '|' :: (label ++ (['|'] ++ (gap' ++ rest)))) := by
      simp only [List.append_assoc, List.cons_append]
      exact skipSpaces_append hgap (forall_mem_head?_cons (by decide) _)
    have hopened : after? ['|'] ('|' :: (label ++ (['|'] ++ (gap' ++ rest)))) =
        some (label ++ (['|'] ++ (gap' ++ rest))) := after?_append ['|'] _
    refine ⟨trim label, ?_⟩
    have harrow : afterArrow? (gap ++ (['-', '-', '>'] ++ (between ++ '|' :: (label ++ ['|'])) ++ gap') ++ rest) =
        some ('|' :: (label ++ (['|'] ++ (gap' ++ rest)))) := by
      rw [afterArrow?, hskip, after?_append, Option.bind_eq_bind, Option.bind_some,
        skipSpaces_append hbetween (forall_mem_head?_cons (by decide) _)]
      rfl
    rw [barArrow?, harrow, Option.bind_eq_bind, Option.bind_some, hopened, Option.bind_some,
      dropWhile_append_of_head? hlabel hend, takeWhile_append_of_head? hlabel hend, after?_append, Option.bind_some,
      skipSpaces_append hgap' hrest]
    rfl
  apart h := by
    obtain ⟨gap, label, -, -, hspaced⟩ := h
    exact hspaced.head?_append (List.cons_ne_nil _ _) (forall_mem_head?_cons (by decide) _)

end Readers

section Search

variable {kind : EdgeKind} {arrow : List Char → Option (List Char × List Char)} {IsArrow : List Char → Prop}

/-- An edge is read where its reference, its arrow and its word stand. The
    reader tries the ways to read the reference in turn, so that of which the
    rest can be read is found whichever comes first. -/
theorem linkAt?_isSome_iff (h : Reads arrow IsArrow) : (linkAt? kind arrow s).isSome ↔
    ∃ source text target, NodeRef.IsText source ∧ IsArrow text ∧ IsWord target ∧
      source ++ (text ++ target) <+: s := by
  rw [linkAt?, List.findSome?_isSome_iff]
  constructor
  · rintro ⟨⟨r, rest⟩, hr, hread⟩
    obtain ⟨statement, hread⟩ := Option.isSome_iff_exists.mp hread
    simp only [Option.bind_eq_bind, Option.bind_eq_some_iff] at hread
    obtain ⟨⟨label, left⟩, harrow, ⟨target, behind⟩, htarget, -⟩ := hread
    obtain ⟨source, hsource, rfl⟩ := NodeRef.exists_isText_of_mem_readings hr
    obtain ⟨text, htext, rfl⟩ := h.sound harrow
    obtain ⟨word, hword, more, rfl⟩ : ∃ word, IsWord word ∧ ∃ more, word ++ more = left := by
      obtain ⟨all, hall, rfl⟩ := NodeRef.exists_isText_of_mem_readings (List.mem_of_mem_head? htarget)
      cases hall with
      | word hid => exact ⟨_, hid, _, rfl⟩
      | quoted hid => exact ⟨_, hid, _, (List.append_assoc _ _ _).symm⟩
      | bracketed hid => exact ⟨_, hid, _, (List.append_assoc _ _ _).symm⟩
    exact ⟨source, text, word, hsource, htext, hword, more, by simp only [List.append_assoc]⟩
  · rintro ⟨source, text, target, hsource, htext, htarget, more, rfl⟩
    obtain ⟨r, hr⟩ := NodeRef.exists_mem_readings hsource (h.apart htext (target ++ more))
    obtain ⟨label, harrow⟩ := h.complete htext (htarget.head?_append more)
    obtain ⟨⟨r', behind⟩, hread⟩ := Option.isSome_iff_exists.mp (NodeRef.read?_isSome htarget more)
    refine ⟨(r, text ++ (target ++ more)), by simpa only [List.append_assoc] using hr, ?_⟩
    simp [harrow, hread]

/-- A search finds something just if it can be read at some place of the
    text. -/
theorem search_isSome_iff {α : Type} {read : List Char → Option α} :
    (search read s).isSome ↔ ∃ t, t <:+ s ∧ (read t).isSome := by
  constructor
  · intro h
    obtain ⟨a, ha⟩ := Option.isSome_iff_exists.mp h
    obtain ⟨t, ht, hread⟩ := exists_of_search ha
    exact ⟨t, ht, Option.isSome_iff_exists.mpr ⟨a, hread⟩⟩
  · rintro ⟨t, ht, hread⟩
    induction s with
    | nil =>
      obtain rfl := List.suffix_nil.mp ht
      exact hread
    | cons c s ih =>
      rw [search]
      cases hhead : read (c :: s) with
      | some a => rfl
      | none =>
        refine ih ((List.suffix_cons_iff.mp ht).resolve_left ?_)
        rintro rfl
        rw [hhead] at hread
        cases hread

/-- An edge is found in a statement just where one stands in it, with anything
    before and behind it. -/
theorem search_linkAt?_isSome_iff (h : Reads arrow IsArrow) :
    (search (linkAt? kind arrow) s).isSome ↔ Links IsArrow s := by
  rw [search_isSome_iff]
  constructor
  · rintro ⟨t, ht, hread⟩
    obtain ⟨source, text, target, hsource, htext, htarget, hprefix⟩ := (linkAt?_isSome_iff h).mp hread
    exact ⟨source, text, target, hsource, htext, htarget, hprefix.isInfix.trans ht.isInfix⟩
  · rintro ⟨source, text, target, hsource, htext, htarget, hinfix⟩
    obtain ⟨t, hprefix, ht⟩ := List.infix_iff_prefix_suffix.mp hinfix
    exact ⟨t, ht, (linkAt?_isSome_iff h).mpr ⟨source, text, target, hsource, htext, htarget, hprefix⟩⟩

/-- No edge is found in a statement just if none stands in it. -/
theorem search_linkAt?_eq_none_iff (h : Reads arrow IsArrow) :
    search (linkAt? kind arrow) s = none ↔ ¬Links IsArrow s := by
  rw [← search_linkAt?_isSome_iff h, Option.not_isSome_iff_eq_none]

end Search

end Statement

end Flowchart

end LiveDiagram
