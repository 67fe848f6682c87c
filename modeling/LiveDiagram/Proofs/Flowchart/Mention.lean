import LiveDiagram.Proofs.Flowchart.Arrows
import LiveDiagram.Proofs.Flowchart.LabelText
import LiveDiagram.Proofs.Flowchart.Written

namespace LiveDiagram

open Text

namespace Flowchart

/-- A label as it is written beside an id. -/
inductive WrittenLabel where
  | absent
  | bracketed (label : String)
  | quoted (label : String)
  deriving DecidableEq, Repr

namespace WrittenLabel

def text : WrittenLabel → List Char
  | absent => []
  | bracketed label => '[' :: (label.toList ++ [']'])
  | quoted label => '[' :: '"' :: (label.toList ++ ['"', ']'])

/-- What is read of the label. -/
def value? : WrittenLabel → Option (List Char)
  | absent => none
  | bracketed label => some (NodeRef.unquote label.toList)
  | quoted label => some label.toList

/-- The label has plain characters only, and no word of it opens a flowchart. -/
def Plain : WrittenLabel → Prop
  | absent => True
  | bracketed label | quoted label => IsPlain label.toList

instance : DecidablePred Plain := fun label => by
  cases label <;> unfold Plain <;> infer_instance

end WrittenLabel

/-- A reference to a node as it is written in a statement: an id, a label in
    brackets or in quotes and brackets, and the mark of a class. -/
structure Mention where
  id : String
  label : WrittenLabel := .absent
  /-- The class that the node joins. -/
  className : Option String := none
  deriving DecidableEq, Repr

namespace Mention

/-- The mark of a class behind a reference. -/
def markText (className : Option String) : List Char :=
  className.elim [] fun name => ':' :: ':' :: ':' :: name.toList

def text (m : Mention) : List Char :=
  m.id.toList ++ (m.label.text ++ markText m.className)

/-- The same reference without the mark of a class. -/
def unmarked (m : Mention) : Mention :=
  { m with className := none }

/-- The id of the node and nothing else. -/
def bare (m : Mention) : Mention where
  id := m.id

/-- The reference that is read of the text. -/
def ref (m : Mention) : NodeRef where
  id := m.id.toList
  label := m.label.value?

/-- The node and the class that it joins, if it joins one. -/
def joins (m : Mention) : List (String × String) :=
  (m.className.map fun name => (m.id, name)).toList

/-- The id and the name of the class are words that open no flowchart, and the
    label is plain. -/
structure Plain (m : Mention) : Prop where
  id : IsName m.id
  label : m.label.Plain
  className : ∀ name ∈ m.className, IsName name

instance : DecidablePred Plain := fun m =>
  decidable_of_iff (IsName m.id ∧ m.label.Plain ∧ ∀ name ∈ m.className, IsName name)
    ⟨fun h => ⟨h.1, h.2.1, h.2.2⟩, fun h => ⟨h.id, h.label, h.className⟩⟩

theorem Plain.unmarked {m : Mention} (h : m.Plain) : m.unmarked.Plain where
  id := h.id
  label := h.label
  className _ hname := by cases hname

theorem Plain.bare {m : Mention} (h : m.Plain) : m.bare.Plain where
  id := h.id
  label := trivial
  className _ hname := by cases hname

end Mention

section Labels

variable {c : Char} {id rest : List Char} {label : WrittenLabel}

/-- No mark but those around it stands in a plain label. -/
theorem WrittenLabel.Plain.not_mem (h : label.Plain) (hc : isPlainChar c = false) (hmarks : c ∉ ['[', '"', ']']) :
    c ∉ label.text := by
  simp only [List.mem_cons, List.not_mem_nil, or_false, not_or] at hmarks
  cases label with
  | absent => exact List.not_mem_nil
  | bracketed label => simp [WrittenLabel.text, IsPlain.not_mem h hc, hmarks]
  | quoted label => simp [WrittenLabel.text, IsPlain.not_mem h hc, hmarks]

/-- No word of a plain label opens a flowchart, nor do the marks around it make
    one. -/
theorem WrittenLabel.Plain.headerFree (h : label.Plain) : HeaderFree label.text := by
  cases label with
  | absent => decide
  | bracketed label =>
    rw [WrittenLabel.text, headerFree_cons (by decide), headerFree_append_cons (by decide)]
    exact ⟨IsPlain.headerFree h, by decide⟩
  | quoted label =>
    rw [WrittenLabel.text, headerFree_cons (by decide), headerFree_cons (by decide),
      headerFree_append_cons (by decide)]
    exact ⟨IsPlain.headerFree h, by decide⟩

/-- Two texts without header words make one if no word goes on from the one to
    the other. -/
theorem headerFree_append {s t : List Char} (hs : HeaderFree s) (ht : HeaderFree t)
    (hhead : ∀ d ∈ t.head?, isWordChar d = false) : HeaderFree (s ++ t) := by
  cases t with
  | nil => rwa [List.append_nil]
  | cons d t =>
    have hd : isWordChar d = false := hhead d rfl
    rw [headerFree_append_cons hd]
    exact ⟨hs, (headerFree_cons hd).mp ht⟩

/-- A bracket that no quote follows opens no label in quotes. -/
theorem quotedLabel?_bracket_eq_none {s : List Char} (hs : ∀ d ∈ s.head?, d ≠ '"') :
    NodeRef.quotedLabel? ('[' :: s) = none := by
  have hopened : after? ['[', '"'] ('[' :: s) = none := by
    cases s with
    | nil => rfl
    | cons d s => exact if_neg (hs d rfl).symm
  rw [NodeRef.quotedLabel?, hopened, Option.bind_eq_bind, Option.bind_none]

/-- A reference is read first as it is meant. Where it is read in another way,
    the same is left or a bracket is, with which neither an arrow nor a class
    mark starts. -/
theorem readings_label (hid : IsWord id) (hlabel : label.Plain)
    (hrest : ∀ d ∈ rest.head?, isWordChar d = false ∧ d ≠ '[') :
    ∃ others, NodeRef.readings (id ++ (label.text ++ rest)) = (⟨id, label.value?⟩, rest) :: others ∧
      ∀ r ∈ others, r.2 = rest ∨ r.2.head? = some '[' := by
  cases label with
  | absent => exact ⟨[], NodeRef.readings_append hid.1 hid.2 hrest, by simp⟩
  | bracketed l =>
    have hplain : IsPlain l.toList := hlabel
    have hword := word?_append (t := '[' :: (l.toList ++ ']' :: rest)) hid.1 hid.2
      (forall_mem_head?_cons (by decide) _)
    have hquoted : NodeRef.quotedLabel? ('[' :: (l.toList ++ ']' :: rest)) = none := by
      refine quotedLabel?_bracket_eq_none fun d hd => ?_
      rintro rfl
      cases hl : l.toList with
      | nil => simp [hl] at hd
      | cons e s =>
        have he : isPlainChar e := hplain.chars e (hl ▸ List.mem_cons_self)
        obtain rfl : e = '"' := by simpa [hl] using hd
        exact absurd he (by decide)
    have hbracket := NodeRef.bracketLabel?_append (hplain.not_mem (c := ']') (by decide)) rest
    refine ⟨[(⟨id, none⟩, '[' :: (l.toList ++ ']' :: rest))], ?_, by simp⟩
    simp [NodeRef.readings, WrittenLabel.text, WrittenLabel.value?, hword, hquoted, hbracket]
  | quoted l =>
    have hplain : IsPlain l.toList := hlabel
    have hword := word?_append (t := '[' :: '"' :: (l.toList ++ '"' :: ']' :: rest)) hid.1 hid.2
      (forall_mem_head?_cons (by decide) _)
    have hquoted := NodeRef.quotedLabel?_append (hplain.not_mem (c := '"') (by decide)) rest
    have hinside : ']' ∉ '"' :: (l.toList ++ ['"']) := by simp [hplain.not_mem (c := ']') (by decide)]
    have hbracket := NodeRef.bracketLabel?_append hinside rest
    simp only [List.cons_append, List.append_assoc, List.nil_append] at hbracket
    refine ⟨[(⟨id, some (NodeRef.unquote ('"' :: (l.toList ++ ['"'])))⟩, rest),
      (⟨id, none⟩, '[' :: '"' :: (l.toList ++ '"' :: ']' :: rest))], ?_, by simp⟩
    simp [NodeRef.readings, WrittenLabel.text, WrittenLabel.value?, hword, hquoted, hbracket]

theorem classMark?_eq_none_of_head? {s : List Char} (hs : ∀ d ∈ s.head?, d ≠ ':') : classMark? s = none := by
  rw [Option.eq_none_iff_forall_ne_some]
  intro r hr
  exact hs ':' (head?_of_classMark? hr) rfl

/-- The mark of a class is read as a class, as far as the word goes. -/
theorem classMark?_mark {name : List Char} (hname : IsWord name)
    (hrest : ∀ d ∈ rest.head?, isWordChar d = false) :
    classMark? (':' :: ':' :: ':' :: (name ++ rest)) = some (name, rest) := by
  have hcolons : after? [':', ':', ':'] (':' :: ':' :: ':' :: (name ++ rest)) = some (name ++ rest) :=
    after?_append [':', ':', ':'] _
  rw [classMark?, hcolons, Option.bind_eq_bind, Option.bind_some, word?_append hname.1 hname.2 hrest]

variable (hid : IsWord id) (hlabel : label.Plain)

include hid hlabel

/-- No class mark follows a reference in any reading of it, if none follows its
    text. In the readings that were not meant a bracket follows, which is no
    mark. -/
theorem markedRef?_label_eq_none (hrest : ∀ d ∈ rest.head?, isWordChar d = false ∧ d ≠ '[' ∧ d ≠ ':') :
    markedRef? (id ++ (label.text ++ rest)) = none := by
  obtain ⟨others, hreadings, hothers⟩ :=
    readings_label hid hlabel fun d hd => ⟨(hrest d hd).1, (hrest d hd).2.1⟩
  have hafter : classMark? rest = none := classMark?_eq_none_of_head? fun d hd => (hrest d hd).2.2
  rw [markedRef?, hreadings, List.findSome?_eq_none_iff]
  rintro ⟨r, left⟩ hr
  have hleft : classMark? left = none := by
    rcases List.mem_cons.mp hr with heq | hother
    · obtain ⟨-, rfl⟩ := Prod.mk.inj heq
      exact hafter
    · rcases hothers _ hother with rfl | hbracket
      · exact hafter
      · refine classMark?_eq_none_of_head? fun d hd => ?_
        obtain rfl := Option.some.inj (hbracket.symm.trans hd)
        decide
  simp only [hleft, Option.bind_eq_bind, Option.bind_none]

/-- Where no class mark follows it, a reference joins no class, and the search
    goes on behind it. From inside the id and from inside the label nothing is
    found either. -/
theorem findAll_markedRef?_label (hrest : ∀ d ∈ rest.head?, isWordChar d = false ∧ d ≠ '[' ∧ d ≠ ':') :
    findAll markedRef? (id ++ (label.text ++ rest)) = findAll markedRef? rest := by
  have hword : ∀ t, t <:+ id → t ≠ [] → IsWord t := fun t ht hne =>
    ⟨hne, fun d hd => hid.2 d (ht.subset hd)⟩
  have hbracket : ∀ s, markedRef? ('[' :: s) = none := fun s => by
    rw [markedRef?, NodeRef.readings, word?_cons_eq_none (by decide)]
    rfl
  rw [findAll_append_of_unread fun t ht hne => markedRef?_label_eq_none (hword t ht hne) hlabel hrest]
  cases label with
  | absent => rfl
  | bracketed l =>
    have hplain : IsPlain l.toList := hlabel
    have htext : (WrittenLabel.bracketed l).text ++ rest = '[' :: ((l.toList ++ [']']) ++ rest) := rfl
    rw [htext, findAll_cons (hbracket _)]
    refine findAll_markedRef?_append ?_ ?_ ?_ rest
    · simp [hplain.not_mem (c := '[') (by decide)]
    · simp [hplain.not_mem (c := ':') (by decide)]
    · rw [List.getLast?_concat]
      rintro d ⟨⟩
      rfl
  | quoted l =>
    have hplain : IsPlain l.toList := hlabel
    have htext : (WrittenLabel.quoted l).text ++ rest = '[' :: (('"' :: (l.toList ++ ['"', ']'])) ++ rest) := rfl
    rw [htext, findAll_cons (hbracket _)]
    refine findAll_markedRef?_append ?_ ?_ ?_ rest
    · simp [hplain.not_mem (c := '[') (by decide)]
    · simp [hplain.not_mem (c := ':') (by decide)]
    · have hlast : ('"' :: (l.toList ++ ['"', ']'])).getLast? = some ']' := by
        simp [List.getLast?_cons, List.getLast?_append]
      rw [hlast]
      rintro d ⟨⟩
      rfl

end Labels

namespace Mention

variable {m : Mention} {rest : List Char} {c : Char}

/-- What follows a reference, if anything does, is told from it by a space. -/
def Apart (rest : List Char) : Prop :=
  ∀ c ∈ rest.head?, c = ' '

theorem apart_nil : Apart [] := fun _ hc => nomatch hc

theorem apart_cons (s : List Char) : Apart (' ' :: s) := fun _ hc => (Option.some.inj hc).symm

/-- A space belongs neither to a word nor to a label nor to the mark of a
    class. -/
theorem Apart.ends (h : Apart rest) : ∀ d ∈ rest.head?, isWordChar d = false ∧ d ≠ '[' ∧ d ≠ ':' := by
  intro d hd
  rw [h d hd]
  decide

theorem head?_markText (className : Option String) : ∀ d ∈ (markText className).head?, isWordChar d = false := by
  cases className with
  | none => exact fun d hd => nomatch hd
  | some name => exact forall_mem_head?_cons (by decide) _

theorem text_unmarked (m : Mention) : m.unmarked.text = m.id.toList ++ m.label.text := by
  rw [text, markText, unmarked, Option.elim_none, List.append_nil]

theorem joins_bare (m : Mention) : m.bare.joins = [] := rfl

theorem declared?_bare (m : Mention) : m.bare.ref.declared? = none := rfl

namespace Plain

variable (h : m.Plain)

include h

/-- A character that is neither plain nor a mark of a reference is not in the
    text of one. -/
theorem not_mem_text (hc : isPlainChar c = false) (hmarks : c ∉ ['[', '"', ']', ':']) : c ∉ m.text := by
  simp only [List.mem_cons, List.not_mem_nil, or_false, not_or] at hmarks
  have hlabel : c ∉ m.label.text := h.label.not_mem hc (by simp [hmarks])
  have hmark : c ∉ markText m.className := by
    cases hname : m.className with
    | none => exact List.not_mem_nil
    | some name => simp [markText, (h.className name hname).isPlain.not_mem hc, hmarks]
  rw [text, List.mem_append, List.mem_append]
  rintro (hid | hmem | hmem)
  · exact h.id.isPlain.not_mem hc hid
  · exact hlabel hmem
  · exact hmark hmem

/-- No word in the text of a plain reference opens a flowchart. -/
theorem headerFree_text : HeaderFree m.text := by
  have hmark : HeaderFree (markText m.className) := by
    cases hname : m.className with
    | none => decide
    | some name =>
      rw [markText, Option.elim_some, headerFree_cons (by decide), headerFree_cons (by decide),
        headerFree_cons (by decide)]
      exact (h.className name hname).isPlain.headerFree
  refine headerFree_append h.id.isPlain.headerFree (headerFree_append h.label.headerFree hmark ?_) ?_
  · exact head?_markText m.className
  · cases hlabel : m.label with
    | absent => exact head?_markText m.className
    | bracketed label => exact forall_mem_head?_cons (by decide) _
    | quoted label => exact forall_mem_head?_cons (by decide) _

theorem text_ne_nil : m.text ≠ [] :=
  List.append_ne_nil_of_left_ne_nil h.id.toList_ne_nil _

/-- A reference ends in a word or in a bracket, so a statement may end in
    one. -/
theorem getLast?_text : ∀ d ∈ m.text.getLast?, isWordChar d ∨ d = ']' := by
  intro d hd
  rw [text, ← List.append_assoc] at hd
  cases hname : m.className with
  | some name =>
    have hmark : m.id.toList ++ m.label.text ++ markText (some name) =
        (m.id.toList ++ m.label.text ++ [':', ':', ':']) ++ name.toList := by simp [markText]
    rw [hname, hmark] at hd
    exact .inl ((h.className name hname).getLast?_append _ d hd)
  | none =>
    rw [hname, markText, Option.elim_none, List.append_nil] at hd
    cases hlabel : m.label with
    | absent =>
      rw [hlabel, WrittenLabel.text, List.append_nil] at hd
      exact .inl (h.id.chars d (List.mem_of_mem_getLast? hd))
    | bracketed label =>
      rw [hlabel] at hd
      right
      simpa [WrittenLabel.text, List.getLast?_append, List.getLast?_cons, eq_comm] using hd
    | quoted label =>
      rw [hlabel] at hd
      right
      simpa [WrittenLabel.text, List.getLast?_append, List.getLast?_cons, eq_comm] using hd

theorem head?_text (rest : List Char) : ∀ d ∈ (m.text ++ rest).head?, isSpace d = false := by
  rw [text, List.append_assoc]
  exact h.id.head?_append _

theorem trim_text : trim m.text = m.text := by
  refine trim_eq_self (fun d hd => ?_) fun d hd => ?_
  · have hhead := h.head?_text []
    rw [List.append_nil] at hhead
    exact isBlank_eq_false_of_isSpace (hhead d hd)
  · rcases h.getLast?_text d hd with hword | rfl
    · exact isBlank_eq_false_of_isWordChar hword
    · rfl

/-- The first way to read the text of a reference is the one that was meant. -/
theorem exists_readings (hrest : Apart rest) :
    ∃ others, NodeRef.readings (m.unmarked.text ++ rest) = (m.ref, rest) :: others := by
  obtain ⟨others, hreadings, -⟩ := readings_label h.id.isWord h.label fun d hd =>
    ⟨(hrest.ends d hd).1, (hrest.ends d hd).2.1⟩
  rw [text_unmarked, List.append_assoc]
  exact ⟨others, hreadings⟩

/-- What is read of the text of a reference, with what follows it left. -/
theorem read?_unmarked (hrest : Apart rest) : NodeRef.read? (m.unmarked.text ++ rest) = some (m.ref, rest) := by
  obtain ⟨others, hreadings⟩ := h.exists_readings hrest
  rw [NodeRef.read?, hreadings, List.head?_cons]

/-- The text of a reference is read as a whole. -/
theorem whole?_unmarked : NodeRef.whole? m.unmarked.text = some m.ref := by
  obtain ⟨others, hreadings⟩ := h.exists_readings apart_nil
  rw [List.append_nil] at hreadings
  rw [NodeRef.whole?, hreadings, List.find?_cons_of_pos rfl]
  rfl

/-- Wherever it stands, a reference with a class mark joins the class of the
    mark, and one without joins none. What follows is told from it by a
    space. -/
theorem findAll_markedRef?_text (hrest : Apart rest) :
    findAll markedRef? (m.text ++ rest) = m.joins ++ findAll markedRef? rest := by
  have hword : ∀ d ∈ rest.head?, isWordChar d = false := fun d hd => (hrest.ends d hd).1
  cases hname : m.className with
  | none =>
    have htext : m.text = m.id.toList ++ m.label.text := by
      rw [text, hname, markText, Option.elim_none, List.append_nil]
    rw [joins, hname, htext, List.append_assoc]
    exact findAll_markedRef?_label h.id.isWord h.label hrest.ends
  | some name =>
    have hisName := h.className name hname
    have htext : m.text ++ rest =
        m.id.toList ++ (m.label.text ++ ':' :: ':' :: ':' :: (name.toList ++ rest)) := by
      rw [text, hname, markText, Option.elim_some, List.append_assoc, List.append_assoc]
      rfl
    have hread : markedRef? (m.text ++ rest) = some ((m.id, name), rest) := by
      obtain ⟨others, hreadings, -⟩ := readings_label h.id.isWord h.label
        (forall_mem_head?_cons (c := ':') ⟨by decide, by decide⟩ (':' :: ':' :: (name.toList ++ rest)))
      rw [markedRef?, htext, hreadings, List.findSome?_cons]
      simp only [classMark?_mark hisName.isWord hword, Option.bind_eq_bind, Option.bind_some, Option.pure_def,
        String.ofList_toList]
    rw [findAll_append_of_read h.text_ne_nil hread, joins, hname]
    rfl

/-- Of a reference only its class mark is erased, and what follows is erased on
    its own. -/
theorem eraseAll_classMark?_text (hrest : Apart rest) :
    eraseAll classMark? (m.text ++ rest) = m.unmarked.text ++ eraseAll classMark? rest := by
  have hcolon : ':' ∉ m.unmarked.text := by
    rw [text_unmarked, List.mem_append, not_or]
    exact ⟨h.id.not_mem (by decide), h.label.not_mem (by decide) (by decide)⟩
  have htext : m.text = m.unmarked.text ++ markText m.className := by
    rw [text_unmarked, text, List.append_assoc]
  rw [htext, List.append_assoc, eraseAll_append_of_unread (classMark?_append_eq_none hcolon _)]
  cases hname : m.className with
  | none => rfl
  | some name =>
    have hread := classMark?_mark (h.className name hname).isWord fun d hd => (hrest.ends d hd).1
    have hmark : markText (some name) ++ rest = ':' :: ':' :: ':' :: (name.toList ++ rest) := rfl
    have hne : markText (some name) ≠ [] := List.cons_ne_nil _ _
    rw [eraseAll_append_of_read hne (hmark ▸ hread)]

end Plain

end Mention

end Flowchart

end LiveDiagram
