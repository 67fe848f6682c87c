import LiveDiagram.Proofs.Flowchart.HeaderWords
import LiveDiagram.Proofs.Flowchart.Reading
import LiveDiagram.Proofs.Text.Forms
import LiveDiagram.Proofs.Text.Inside

namespace LiveDiagram

open Text

variable {c d : Char} {before s t after : List Char}

namespace Flowchart

section Directions

theorem not_mem_of_isWordChar_eq_false {word : List Char} (hword : word.all isWordChar)
    (hc : isWordChar c = false) : c ∉ word := fun hmem =>
  Bool.false_ne_true (hc.symm.trans (List.all_eq_true.mp hword c hmem))

/-- A header word at the head of a text does not reach past a character that
    belongs to no word. -/
theorem afterHeaderWord?_append_cons (hc : isWordChar c = false) (s t : List Char) :
    afterHeaderWord? (s ++ c :: t) = (afterHeaderWord? s).map (· ++ c :: t) := by
  have hflowchart : c ∉ "flowchart".toList := not_mem_of_isWordChar_eq_false (by decide) hc
  have hgraph : c ∉ "graph".toList := not_mem_of_isWordChar_eq_false (by decide) hc
  rw [afterHeaderWord?, afterHeaderWord?, after?_append_cons hflowchart, after?_append_cons hgraph]
  cases after? "flowchart".toList s <;> rfl

/-- Whether a word ends at the head of a text can be told without what stands
    behind a character that belongs to no word. -/
theorem isWordEnd_append_cons (hc : isWordChar c = false) (s t : List Char) :
    isWordEnd (s ++ c :: t) = isWordEnd s := by
  cases s with
  | nil => simp [isWordEnd, hc]
  | cons d s => rfl

/-- The direction that is named at the head of a text. -/
def named? (s : List Char) : Option Direction :=
  Direction.all.find? fun d => (after? d.name.toList s).any isWordEnd

/-- A direction at the head of a text, with the name taken as a part of its
    own. -/
theorem directionAt?_eq (s : List Char) :
    directionAt? s = (afterHeaderWord? s).bind fun rest => (skipSpaces? rest).bind named? :=
  rfl

/-- The name of a direction does not reach past a character that belongs to no
    word. -/
theorem named?_append_cons (hc : isWordChar c = false) (s t : List Char) : named? (s ++ c :: t) = named? s := by
  have hsame : ∀ d : Direction, (after? d.name.toList (s ++ c :: t)).any isWordEnd =
      (after? d.name.toList s).any isWordEnd := by
    intro d
    have hname : c ∉ d.name.toList := not_mem_of_isWordChar_eq_false (by cases d <;> decide) hc
    rw [after?_append_cons hname, Option.any_map]
    exact congrArg (fun p => Option.any p (after? d.name.toList s))
      (funext fun rest => isWordEnd_append_cons hc rest t)
  simp only [named?, hsame]

theorem named?_eq_none (hs : ∀ c ∈ s.head?, isWordChar c = false) : named? s = none := by
  refine List.find?_eq_none.mpr fun d _ => ?_
  have hnone : after? d.name.toList s = none := by
    cases s with
    | nil => cases d <;> rfl
    | cons c s =>
      have hword : ∀ e ∈ d.name.toList, e ≠ c := by
        rintro e he rfl
        have hname : d.name.toList.all isWordChar := by cases d <;> decide
        exact Bool.false_ne_true ((hs e rfl).symm.trans (List.all_eq_true.mp hname e he))
      cases d <;> exact if_neg (hword _ List.mem_cons_self)
  rw [hnone, Option.any_none]
  exact Bool.false_ne_true

/-- A direction in a text does not reach into what follows, if a word neither
    goes on nor starts there. White space may come first, since a header word
    and the name are apart. -/
theorem directionAt?_append_cons (hc : isWordChar c = false)
    (hafter : ∀ d ∈ (skipSpaces (c :: t)).head?, isWordChar d = false) (s : List Char) :
    directionAt? (s ++ c :: t) = directionAt? s := by
  rw [directionAt?_eq, directionAt?_eq, afterHeaderWord?_append_cons hc]
  cases afterHeaderWord? s with
  | none => rfl
  | some rest =>
    rw [Option.map_some, Option.bind_some, Option.bind_some]
    cases rest with
    | nil =>
      have hnone : skipSpaces? [] = none := rfl
      rw [List.nil_append, hnone, Option.bind_none, skipSpaces?]
      split
      · rename_i hspace
        rw [skipSpaces, List.dropWhile_cons_of_pos hspace] at hafter
        exact named?_eq_none hafter
      · rfl
    | cons e rest =>
      rw [List.cons_append, skipSpaces?, skipSpaces?]
      split
      · rw [Option.bind_some, Option.bind_some, skipSpaces, List.dropWhile_append]
        split
        · rename_i hempty
          rw [skipSpaces, List.isEmpty_iff.mp hempty]
          exact named?_eq_none hafter
        · exact named?_append_cons hc _ t
      · rfl

/-- The direction that is found in a text is found with more behind it, if no
    header word stands there. The induction is on the text. -/
theorem directionIn?_append_cons (hc : isWordChar c = false)
    (hafter : ∀ d ∈ (skipSpaces (c :: t)).head?, isWordChar d = false) (hfree : HeaderFree t)
    (inWord : Bool) (s : List Char) : directionIn? inWord (s ++ c :: t) = directionIn? inWord s := by
  induction s generalizing inWord with
  | nil =>
    have hwords : ∀ w ∈ words (c :: t), w ∉ headerWords := (headerFree_cons hc).mpr hfree
    refine directionIn?_eq_none fun w hw => hwords w ?_
    split at hw
    · exact List.mem_of_mem_tail hw
    · exact hw
  | cons d s ih =>
    have hhere : directionAt? (d :: (s ++ c :: t)) = directionAt? (d :: s) :=
      directionAt?_append_cons hc hafter (d :: s)
    rw [List.cons_append, directionIn?, directionIn?, hhere, ih]

/-- A text of which no word is a header word is passed over, up to a character
    that belongs to no word, behind which a word may start. -/
theorem directionIn?_cons_of_headerFree (hc : isWordChar c = false) (inWord : Bool)
    (hbefore : ∀ w ∈ if inWord then (words before).tail else words before, w ∉ headerWords) (s : List Char) :
    directionIn? inWord (before ++ c :: s) = directionIn? false s := by
  induction before generalizing inWord with
  | nil =>
    have hhere : directionAt? (c :: s) = none := by
      refine directionAt?_eq_none ?_
      rw [List.takeWhile_cons_of_neg (by simp [hc])]
      decide
    rw [List.nil_append, directionIn?, hhere, ite_self, hc]
  | cons d before ih =>
    have hhere : (if inWord then none else directionAt? (d :: (before ++ c :: s))) = none := by
      cases inWord with
      | true => rfl
      | false =>
        refine directionAt?_eq_none ?_
        rw [← List.cons_append, takeWhile_append_cons hc]
        exact hbefore _ (List.mem_of_mem_head? (head?_words (d :: before)))
    rw [List.cons_append, directionIn?, hhere]
    refine ih _ fun w hw => hbefore w ?_
    have hlater : w ∈ (words (d :: before)).tail := by
      cases hd : isWordChar d with
      | false =>
        rw [words_cons_of_not_isWordChar hd, List.tail_cons]
        simpa [hd] using hw
      | true =>
        rw [words_cons_of_isWordChar hd, List.tail_modifyHead]
        simpa [hd] using hw
    split
    · exact hlater
    · exact List.mem_of_mem_tail hlater

/-- The direction that a line states is that of a text within it, if no header
    word stands around the text. So what a label says is found in its line just
    as it is found alone. -/
theorem directionIn?_inside (hbefore : HeaderFree before) (hlast : ∀ c ∈ before.getLast?, isWordChar c = false)
    (hc : isWordChar c = false) (hafter : ∀ d ∈ (skipSpaces (c :: t)).head?, isWordChar d = false)
    (hfree : HeaderFree t) (s : List Char) :
    directionIn? false (before ++ (s ++ c :: t)) = directionIn? false s := by
  have hpassed : directionIn? false (before ++ (s ++ c :: t)) = directionIn? false (s ++ c :: t) := by
    obtain rfl | ⟨passed, d, rfl⟩ := List.eq_nil_or_concat' before
    · rfl
    · have hd : isWordChar d = false := hlast d (by simp)
      rw [List.append_assoc, List.singleton_append]
      exact directionIn?_cons_of_headerFree hd false ((headerFree_append_cons hd).mp hbefore).1 _
  rw [hpassed, directionIn?_append_cons hc hafter hfree]

end Directions

section Marks

/-- No class mark stands in the text. -/
def MarkFree (s : List Char) : Prop :=
  ∀ c, isWordChar c → ¬[':', ':', ':', c] <:+: s

/-- A class mark stands where three colons and a word character do. -/
theorem classMark?_isSome_iff : (classMark? s).isSome ↔ ∃ c, isWordChar c ∧ [':', ':', ':', c] <+: s := by
  constructor
  · intro h
    obtain ⟨⟨name, rest⟩, hmark⟩ := Option.isSome_iff_exists.mp h
    obtain ⟨marked, hcolons, hname⟩ := Option.bind_eq_some_iff.mp hmark
    obtain ⟨rfl, hword, -⟩ := word?_eq_some_iff.mp hname
    obtain ⟨c, name, rfl, hc⟩ := hword.exists_cons
    have hs : [':', ':', ':'] ++ (c :: name ++ rest) = s := append_of_after? hcolons
    exact ⟨c, hc, name ++ rest, hs⟩
  · rintro ⟨c, hc, rest, rfl⟩
    have hword : word? (c :: rest) ≠ none := by
      rw [word?, List.takeWhile_cons_of_pos hc]
      simp
    have hcolons : after? [':', ':', ':'] ([':', ':', ':', c] ++ rest) = some (c :: rest) :=
      after?_append [':', ':', ':'] (c :: rest)
    rw [classMark?, hcolons, Option.bind_eq_bind, Option.bind_some]
    exact Option.isSome_iff_ne_none.mpr hword

/-- A text without class marks has no place where one can be read. -/
theorem markFree_iff : MarkFree s ↔ ∀ t, t <:+ s → classMark? t = none := by
  constructor
  · intro h t ht
    rw [← Option.not_isSome_iff_eq_none, classMark?_isSome_iff]
    rintro ⟨c, hc, hprefix⟩
    exact h c hc (List.infix_iff_prefix_suffix.mpr ⟨t, hprefix, ht⟩)
  · intro h c hc hinfix
    obtain ⟨t, hprefix, ht⟩ := List.infix_iff_prefix_suffix.mp hinfix
    have hsome : (classMark? t).isSome := classMark?_isSome_iff.mpr ⟨c, hc, hprefix⟩
    rw [h t ht] at hsome
    cases hsome

theorem markFree_of_not_mem (hs : ':' ∉ s) : MarkFree s :=
  markFree_iff.mpr fun _ ht => classMark?_eq_none fun h => hs (ht.subset h)

theorem head?_of_classMark? {r : List Char × List Char} (h : classMark? s = some r) : s.head? = some ':' := by
  obtain ⟨c, -, rest, rfl⟩ := classMark?_isSome_iff.mp (Option.isSome_iff_exists.mpr ⟨r, h⟩)
  rfl

/-- Erasing the class marks takes away their colons, so it changes a text that
    has one. -/
theorem count_eraseAll_classMark?_lt (h : ¬MarkFree s) : (eraseAll classMark? s).count ':' < s.count ':' := by
  rw [markFree_iff] at h
  push Not at h
  obtain ⟨t, ht, hmark⟩ := h
  exact count_eraseAll_lt (fun _ _ => head?_of_classMark?) ht (Option.isSome_iff_ne_none.mpr hmark)

/-- A text has no class marks just if erasing them leaves it as it is. -/
theorem markFree_iff_eraseAll_eq_self : MarkFree s ↔ eraseAll classMark? s = s := by
  refine ⟨fun h => eraseAll_eq_self (markFree_iff.mp h), fun h => ?_⟩
  by_contra hmark
  have hlt := count_eraseAll_classMark?_lt hmark
  rw [h] at hlt
  exact Nat.lt_irrefl _ hlt

theorem classMark?_append_eq_none (hbefore : ':' ∉ before) (s : List Char) :
    ∀ t, t <:+ before → t ≠ [] → classMark? (t ++ s) = none := by
  intro t ht hne
  obtain ⟨c, t, rfl⟩ := List.exists_cons_of_ne_nil hne
  rw [Option.eq_none_iff_forall_ne_some]
  intro r hr
  obtain rfl := Option.some.inj (head?_of_classMark? hr)
  exact hbefore (ht.subset List.mem_cons_self)

/-- A class mark ends at a character that belongs to no word and is no colon. -/
theorem classMark?_endsAt (hc : isWordChar c = false) (hcolon : c ≠ ':') (t : List Char) :
    EndsAt classMark? (c :: t) := by
  intro s
  have hcolons : c ∉ [':', ':', ':'] := by simpa using hcolon
  rw [classMark?, classMark?, after?_append_cons hcolons]
  cases after? [':', ':', ':'] s with
  | none => rfl
  | some marked => exact word?_endsAt hc t marked

/-- Erasing the class marks takes away words and colons only. -/
theorem mem_eraseAll_classMark? (hc : isWordChar c = false) (hcolon : c ≠ ':') (hs : c ∈ s) :
    c ∈ eraseAll classMark? s := by
  refine mem_eraseAll (fun t r hmark => ?_) hs
  obtain ⟨marked, hcolons, hname⟩ := Option.bind_eq_some_iff.mp hmark
  obtain ⟨hmarked, hword, -⟩ := word?_eq_some_iff.mp hname
  refine ⟨[':', ':', ':'] ++ r.1, List.append_ne_nil_of_left_ne_nil (List.cons_ne_nil _ _) _, ?_, ?_⟩
  · rw [List.append_assoc, hmarked, append_of_after? hcolons]
  · simp [hcolon, hword.not_mem hc]

section Inside

variable (hbefore : ':' ∉ before) (hc : isWordChar c = false) (hafter : ':' ∉ c :: t)

include hbefore hc hafter

/-- Class marks are erased from a text within a line as they are from the text
    alone. No colon stands around the text, so no mark reaches into it or out of
    it. -/
theorem eraseAll_classMark?_inside (s : List Char) :
    eraseAll classMark? (before ++ (s ++ c :: t)) = before ++ (eraseAll classMark? s ++ c :: t) :=
  eraseAll_inside (classMark?_append_eq_none hbefore _)
    (classMark?_endsAt hc (List.ne_of_not_mem_cons hafter).symm t)
    fun _ ht => classMark?_eq_none fun h => hafter (ht.subset h)

/-- A line with no colons around a text has a class mark just if the text has
    one. -/
theorem markFree_inside_iff : MarkFree (before ++ (s ++ c :: t)) ↔ MarkFree s := by
  rw [markFree_iff_eraseAll_eq_self, markFree_iff_eraseAll_eq_self, eraseAll_classMark?_inside hbefore hc hafter,
    List.append_cancel_left_eq, List.append_cancel_right_eq]

end Inside

theorem markedRef?_eq_none_of_unmarked (h : ∀ t, t <:+ s → classMark? t = none) : markedRef? s = none := by
  refine List.findSome?_eq_none_iff.mpr ?_
  rintro ⟨r, rest⟩ hr
  simp only [h rest (NodeRef.suffix_of_mem_readings hr), Option.bind_eq_bind, Option.bind_none]

theorem MarkFree.findAll_markedRef? (h : MarkFree s) : findAll markedRef? s = [] :=
  findAll_eq_nil fun _ ht => markedRef?_eq_none_of_unmarked fun _ hu => markFree_iff.mp h _ (hu.trans ht)

/-- No reference with a class mark starts in a word that neither a bracket nor a
    colon follows. -/
theorem markedRef?_append_cons (hs : ∀ d ∈ s, isWordChar d) (hc : isWordChar c = false)
    (hmarks : c ∉ ['[', ':'])
    (t : List Char) : markedRef? (s ++ c :: t) = none := by
  simp only [List.mem_cons, List.not_mem_nil, or_false, not_or] at hmarks
  by_cases hne : s = []
  · rw [hne, List.nil_append, markedRef?, NodeRef.readings, word?_cons_eq_none hc]
    rfl
  · have hmark : classMark? (c :: t) = none := by
      rw [Option.eq_none_iff_forall_ne_some]
      exact fun r hr => hmarks.2 (Option.some.inj (head?_of_classMark? hr))
    rw [markedRef?, NodeRef.readings_append hne hs (forall_mem_head?_cons ⟨hc, hmarks.1⟩ _),
      List.findSome?_singleton]
    simp only [hmark, Option.bind_eq_bind, Option.bind_none]

/-- No reference with a class mark starts in a text without brackets and colons
    that does not end in a word: its word ends within the text, and neither a
    label nor a mark follows. -/
theorem markedRef?_append_eq_none (hne : before ≠ []) (hbracket : '[' ∉ before) (hcolon : ':' ∉ before)
    (hlast : ∀ c ∈ before.getLast?, isWordChar c = false) (s : List Char) : markedRef? (before ++ s) = none := by
  obtain ⟨word, c, rest, rfl, hword, hc⟩ := exists_word_append_cons hne hlast
  have hmem : c ∈ word ++ c :: rest := List.mem_append_right _ List.mem_cons_self
  have hmarks : c ∉ ['[', ':'] := by
    simp only [List.mem_cons, List.not_mem_nil, or_false, not_or]
    exact ⟨ne_of_mem_of_not_mem hmem hbracket, ne_of_mem_of_not_mem hmem hcolon⟩
  rw [List.append_assoc, List.cons_append]
  exact markedRef?_append_cons hword hc hmarks (rest ++ s)

/-- References with class marks are looked for behind a text without brackets
    and colons that does not end in a word. -/
theorem findAll_markedRef?_append (hbracket : '[' ∉ before) (hcolon : ':' ∉ before)
    (hlast : ∀ c ∈ before.getLast?, isWordChar c = false) (s : List Char) :
    findAll markedRef? (before ++ s) = findAll markedRef? s := by
  induction before with
  | nil => rfl
  | cons c before ih =>
    have hhere : markedRef? (c :: (before ++ s)) = none :=
      markedRef?_append_eq_none (List.cons_ne_nil c before) hbracket hcolon hlast s
    rw [List.cons_append, findAll_cons hhere]
    refine ih (List.not_mem_of_not_mem_cons hbracket) (List.not_mem_of_not_mem_cons hcolon) fun d hd => hlast d ?_
    rw [List.getLast?_cons, Option.mem_def.mp hd]
    rfl

section Ends

variable (hc : isWordChar c = false) (hafter : ∀ d ∈ ['[', '"', ']', ':'], d ∉ c :: t)

include hc hafter

/-- References in a text do not reach into what follows, if no mark in it could
    close a label. A word ends at the character behind the text in any case. -/
theorem readings_append_cons (s : List Char) :
    NodeRef.readings (s ++ c :: t) = (NodeRef.readings s).map fun r => (r.1, r.2 ++ c :: t) := by
  have hmarks : ∀ d ∈ ['[', '"', ']', ':'], c ≠ d := fun d hd => (List.ne_of_not_mem_cons (hafter d hd)).symm
  simp only [List.mem_cons, List.not_mem_nil, or_false, forall_eq_or_imp, forall_eq] at hmarks
  obtain ⟨hopening, hquote, hclosing, -⟩ := hmarks
  have hquoted : EndsAt NodeRef.quotedLabel? (c :: t) :=
    label_endsAt (by simp [hopening, hquote]) (by simp [hquote, hclosing]) (hafter '"' (by decide))
  have hbracketed : EndsAt NodeRef.bracketLabel? (c :: t) :=
    label_endsAt (by simp [hopening]) (by simp [hclosing]) (hafter ']' (by decide))
  rw [NodeRef.readings, NodeRef.readings, word?_endsAt hc t s]
  cases word? s with
  | none => rfl
  | some read =>
    simp only [Option.map_some, hquoted read.2, hbracketed read.2]
    cases NodeRef.quotedLabel? read.2 <;> cases NodeRef.bracketLabel? read.2 <;> rfl

/-- A reference with a class mark ends within its text, if what follows holds
    none of the marks that a reference has. -/
theorem markedRef?_endsAt : EndsAt markedRef? (c :: t) := by
  intro s
  have hcolon : c ≠ ':' := (List.ne_of_not_mem_cons (hafter ':' (by decide))).symm
  rw [markedRef?, markedRef?, readings_append_cons hc hafter, List.findSome?_map, List.map_findSome?]
  refine congrArg (fun f => List.findSome? f (NodeRef.readings s)) (funext fun r => ?_)
  simp only [Function.comp_apply, classMark?_endsAt hc hcolon t r.2]
  cases classMark? r.2 <;> rfl

end Ends

/-- The references with class marks in a text within a line are those in the
    text alone. Before the text a label or a mark may not begin, and behind it
    none may end. -/
theorem findAll_markedRef?_inside (hbracket : '[' ∉ before) (hcolon : ':' ∉ before)
    (hlast : ∀ c ∈ before.getLast?, isWordChar c = false) (hc : isWordChar c = false)
    (hafter : ∀ d ∈ ['[', '"', ']', ':'], d ∉ c :: t) (s : List Char) :
    findAll markedRef? (before ++ (s ++ c :: t)) = findAll markedRef? s := by
  have hnone : findAll markedRef? (c :: t) = [] := findAll_markedRef? (hafter ':' (by decide))
  rw [findAll_markedRef?_append hbracket hcolon hlast, findAll_append (markedRef?_endsAt hc hafter), hnone,
    List.append_nil]

/-- A line is stated as it is without its class marks, if that neither starts
    nor ends in a blank and does not end in a semicolon. -/
theorem statementText_eq_eraseAll (htrim : trim (eraseAll classMark? s) = eraseAll classMark? s)
    (hlast : ∀ d ∈ (eraseAll classMark? s).getLast?, (d == ';') = false) :
    statementText s = eraseAll classMark? s := by
  rw [statementText, htrim, dropTrailing_eq_self hlast, htrim]

end Marks

end Flowchart

end LiveDiagram
