import LiveDiagram.Proofs.Text.Reading

namespace LiveDiagram.Text

variable {α : Type} {c : Char} {before s t after : List Char}

section Parts

/-- A text that does not end in a word has a word, if only the empty one, and
    what ends it at its head. -/
theorem exists_word_append_cons (hne : s ≠ []) (hlast : ∀ d ∈ s.getLast?, isWordChar d = false) :
    ∃ word d rest, s = word ++ d :: rest ∧ (∀ e ∈ word, isWordChar e) ∧ isWordChar d = false := by
  cases hdrop : s.dropWhile isWordChar with
  | nil =>
    have hend := hlast _ (List.getLast?_eq_getLast_of_ne_nil hne)
    rw [List.dropWhile_eq_nil_iff.mp hdrop _ (List.getLast_mem hne)] at hend
    cases hend
  | cons d rest =>
    refine ⟨s.takeWhile isWordChar, d, rest, ?_, fun e he => List.mem_takeWhile_imp he, ?_⟩
    · rw [← hdrop, List.takeWhile_append_dropWhile]
    · exact forall_mem_head?_dropWhile isWordChar s d (by rw [hdrop]; rfl)

/-- A text without the separator that stands in a text stands on one side of it.
    It must not be empty, since an empty text stands on both sides. -/
theorem infix_append_cons_iff {part : List Char} (hne : part ≠ []) (hc : c ∉ part) :
    part <:+: s ++ c :: t ↔ part <:+: s ∨ part <:+: t := by
  have hstart : ∀ u : List Char, u ≠ [] → u <+: c :: t → c ∈ u := by
    intro u hu hprefix
    obtain ⟨d, u, rfl⟩ := List.exists_cons_of_ne_nil hu
    obtain ⟨rfl, -⟩ := List.cons_prefix_cons.mp hprefix
    exact List.mem_cons_self
  constructor
  · intro h
    rcases List.infix_append_iff_ne_nil.mp h with hleft | hright | ⟨u, v, -, hv, rfl, -, hprefix⟩
    · exact .inl hleft
    · rcases List.infix_cons_iff.mp hright with hprefix | hlater
      · exact absurd (hstart part hne hprefix) hc
      · exact .inr hlater
    · exact absurd (List.mem_append_right u (hstart v hv hprefix)) hc
  · rintro (h | h)
    · exact h.trans (List.prefix_append s _).isInfix
    · exact h.trans ((List.suffix_cons c t).trans (List.suffix_append s _)).isInfix

end Parts

section Endings

/-- What is read at the head of a text is read in the same way if `after`
    follows the text: to this reader, `after` is as good as the end of the
    text. -/
def EndsAt (read : List Char → Option (α × List Char)) (after : List Char) : Prop :=
  ∀ s, read (s ++ after) = (read s).map fun r => (r.1, r.2 ++ after)

theorem word?_endsAt (hc : isWordChar c = false) (t : List Char) : EndsAt word? (c :: t) := by
  intro s
  rw [word?, word?, takeWhile_append_cons hc, dropWhile_append_cons hc]
  cases s.takeWhile isWordChar <;> rfl

/-- A label between two marks ends within the text if no closing mark stands
    behind it. The character that follows the text must not be part of the
    opening mark or of the closing one, or else a mark could be completed
    there. -/
theorem label_endsAt {opening closing : List Char} {mark : Char} (hopening : c ∉ opening)
    (hclosing : c ∉ mark :: closing) (hmark : mark ∉ c :: t) :
    EndsAt (fun s => (after? opening s).bind fun s => (after? (mark :: closing) (s.dropWhile (· != mark))).bind
      fun rest => some (s.takeWhile (· != mark), rest)) (c :: t) := by
  intro s
  dsimp only
  rw [after?_append_cons hopening]
  cases after? opening s with
  | none => rfl
  | some opened =>
    rw [Option.map_some, Option.bind_some, Option.bind_some, List.dropWhile_append]
    cases hdrop : opened.dropWhile (· != mark) with
    | nil =>
      have hrest : (c :: t).dropWhile (· != mark) = [] :=
        List.dropWhile_eq_nil_iff.mpr fun d hd => by simpa using ne_of_mem_of_not_mem hd hmark
      rw [hrest]
      rfl
    | cons d rest =>
      have hlabel : (opened ++ c :: t).takeWhile (· != mark) = opened.takeWhile (· != mark) := by
        rw [List.takeWhile_append, if_neg]
        intro hlength
        have hall := congrArg List.length (List.takeWhile_append_dropWhile (p := (· != mark)) (l := opened))
        rw [hdrop, List.length_append, List.length_cons] at hall
        omega
      rw [List.isEmpty_cons, if_neg Bool.false_ne_true, after?_append_cons hclosing, hlabel]
      cases after? (mark :: closing) (d :: rest) <;> rfl

end Endings

section Segments

variable {read : List Char → Option (α × List Char)}

/-- A text is cut into its own parts if what follows it ends every one of them.
    The induction is on the text; what is left over of a part found before is
    counted down first, and it lies within the text. -/
theorem segmentsFrom_append (hafter : EndsAt read after) {n : Nat} (hn : n ≤ s.length) :
    segmentsFrom read n (s ++ after) = segmentsFrom read n s ++ segments read after := by
  induction s generalizing n with
  | nil =>
    obtain rfl : n = 0 := Nat.le_zero.mp hn
    rfl
  | cons c s ih =>
    cases n with
    | succ n =>
      rw [List.cons_append, segmentsFrom, segmentsFrom, ih (Nat.le_of_succ_le_succ hn)]
    | zero =>
      have hread : read (c :: (s ++ after)) = (read (c :: s)).map fun r => (r.1, r.2 ++ after) := hafter (c :: s)
      rw [List.cons_append, segmentsFrom, segmentsFrom, hread]
      cases read (c :: s) with
      | none => exact congrArg _ (ih (Nat.zero_le _))
      | some r =>
        have hcount : (s ++ after).length - (r.2 ++ after).length = s.length - r.2.length := by
          rw [List.length_append, List.length_append, Nat.add_sub_add_right]
        rw [Option.map_some]
        dsimp only
        rw [hcount, ih (Nat.sub_le _ _), List.cons_append]

/-- What stands before a text is passed over where nothing can be read. Every
    place of it is tried, with all that follows, and each character there stands
    for itself. -/
theorem segments_append_of_unread (hbefore : ∀ t, t <:+ before → t ≠ [] → read (t ++ s) = none) :
    segments read (before ++ s) = before.map .inl ++ segments read s := by
  induction before with
  | nil => rfl
  | cons c before ih =>
    have hread : read (c :: (before ++ s)) = none :=
      hbefore (c :: before) List.suffix_rfl (List.cons_ne_nil c before)
    rw [List.cons_append, segments, segmentsFrom, hread, List.map_cons, List.cons_append]
    exact congrArg _ (ih fun t ht => hbefore t (ht.trans (List.suffix_cons c before)))

/-- The characters that belong to the part found last are skipped, and the
    cutting goes on behind them. -/
theorem segmentsFrom_length_append (part rest : List Char) :
    segmentsFrom read part.length (part ++ rest) = segments read rest := by
  induction part with
  | nil => rfl
  | cons c part ih =>
    rw [List.length_cons, List.cons_append, segmentsFrom]
    exact ih

/-- What is read at the head of a text is a part of its own, and the cutting
    goes on behind it. A reader that read nothing at all would not get on, so
    the part is not empty. -/
theorem segments_append_of_read {part rest : List Char} {a : α} (hne : part ≠ [])
    (h : read (part ++ rest) = some (a, rest)) : segments read (part ++ rest) = .inr a :: segments read rest := by
  obtain ⟨c, part, rfl⟩ := List.exists_cons_of_ne_nil hne
  have hread : read (c :: (part ++ rest)) = some (a, rest) := h
  have hcount : (part ++ rest).length - rest.length = part.length := by
    rw [List.length_append, Nat.add_sub_cancel]
  rw [List.cons_append, segments, segmentsFrom, hread]
  dsimp only
  rw [hcount, segmentsFrom_length_append]

/-- What is read at the head of a text is found first. -/
theorem findAll_append_of_read {part rest : List Char} {a : α} (hne : part ≠ [])
    (h : read (part ++ rest) = some (a, rest)) : findAll read (part ++ rest) = a :: findAll read rest := by
  rw [findAll, segments_append_of_read hne h]
  rfl

theorem eraseAll_append_of_read {part rest : List Char} {a : α} (hne : part ≠ [])
    (h : read (part ++ rest) = some (a, rest)) : eraseAll read (part ++ rest) = eraseAll read rest := by
  rw [eraseAll, segments_append_of_read hne h]
  rfl

/-- Nothing is found in what stands before a text if nothing can be read from
    there. -/
theorem findAll_append_of_unread (hbefore : ∀ t, t <:+ before → t ≠ [] → read (t ++ s) = none) :
    findAll read (before ++ s) = findAll read s := by
  rw [findAll, segments_append_of_unread hbefore]
  simp [findAll, List.filterMap_map, Function.comp_def]

/-- Nothing is erased in what stands before a text if nothing can be read from
    there. -/
theorem eraseAll_append_of_unread (hbefore : ∀ t, t <:+ before → t ≠ [] → read (t ++ s) = none) :
    eraseAll read (before ++ s) = before ++ eraseAll read s := by
  rw [eraseAll, segments_append_of_unread hbefore]
  simp [eraseAll, List.filterMap_map, Function.comp_def]

/-- A text between two others is cut into its own parts. Nothing is read from
    what stands before, whatever follows it, and what stands behind ends all
    that is read in the text. -/
theorem segments_inside (hbefore : ∀ t, t <:+ before → t ≠ [] → read (t ++ (s ++ after)) = none)
    (hafter : EndsAt read after) (hunread : ∀ t, t <:+ after → read t = none) :
    segments read (before ++ (s ++ after)) = before.map .inl ++ (segments read s ++ after.map .inl) := by
  rw [segments_append_of_unread hbefore, ← segments_eq_map_inl hunread, segments, segments,
    segmentsFrom_append hafter (Nat.zero_le _)]

/-- Erasing in a text between two others leaves the two others as they are,
    under the conditions under which the text is cut into its own parts. -/
theorem eraseAll_inside (hbefore : ∀ t, t <:+ before → t ≠ [] → read (t ++ (s ++ after)) = none)
    (hafter : EndsAt read after) (hunread : ∀ t, t <:+ after → read t = none) :
    eraseAll read (before ++ (s ++ after)) = before ++ (eraseAll read s ++ after) := by
  have hkept : ∀ l : List Char, (l.map (Sum.inl : Char → Char ⊕ α)).filterMap Sum.getLeft? = l := fun l => by
    simp [List.filterMap_map, Function.comp_def]
  rw [eraseAll, segments_inside hbefore hafter hunread, List.filterMap_append, List.filterMap_append, hkept, hkept,
    eraseAll]

/-- What is found in a text that nothing read in it reaches out of is found
    there first, and then what is found behind it. -/
theorem findAll_append (hafter : EndsAt read after) (s : List Char) :
    findAll read (s ++ after) = findAll read s ++ findAll read after := by
  rw [findAll, segments, segmentsFrom_append hafter (Nat.zero_le _), List.filterMap_append]
  rfl

theorem findAll_cons (h : read (c :: s) = none) : findAll read (c :: s) = findAll read s := by
  rw [findAll, segments, segmentsFrom, h]
  rfl

/-- Erasing adds no characters and leaves the others in order, also when the
    text starts within a part. -/
theorem filterMap_segmentsFrom_sublist (read : List Char → Option (α × List Char)) (n : Nat) (s : List Char) :
    ((segmentsFrom read n s).filterMap Sum.getLeft?).Sublist s := by
  induction s generalizing n with
  | nil => cases n <;> exact List.nil_sublist _
  | cons c s ih =>
    cases n with
    | succ n => exact (ih n).trans (List.sublist_cons_self c s)
    | zero =>
      rw [segmentsFrom]
      cases read (c :: s) with
      | none => exact (ih 0).cons_cons c
      | some r => exact (ih _).trans (List.sublist_cons_self c s)

theorem eraseAll_sublist (read : List Char → Option (α × List Char)) (s : List Char) :
    (eraseAll read s).Sublist s :=
  filterMap_segmentsFrom_sublist read 0 s

/-- Erasing keeps every character that nothing read has. The reader is one that
    takes a part off the text, which is not empty and does not hold the
    character. -/
theorem mem_eraseAll (hread : ∀ t r, read t = some r → ∃ part, part ≠ [] ∧ part ++ r.2 = t ∧ c ∉ part)
    (hc : c ∈ s) :
    c ∈ eraseAll read s := by
  have hkept : ∀ n, c ∉ s.take n → c ∈ (segmentsFrom read n s).filterMap Sum.getLeft? := by
    induction s with
    | nil => cases hc
    | cons d s ih =>
      intro n hn
      have hlater : ∀ n, c ≠ d → c ∉ s.take n → c ∈ (segmentsFrom read n s).filterMap Sum.getLeft? :=
        fun n hne hn => ih ((List.mem_cons.mp hc).resolve_left hne) n hn
      cases n with
      | succ n =>
        rw [List.take_succ_cons, List.mem_cons, not_or] at hn
        exact hlater n hn.1 hn.2
      | zero =>
        rw [segmentsFrom]
        cases hhead : read (d :: s) with
        | some r =>
          obtain ⟨part, hne, hpart, hfree⟩ := hread _ r hhead
          obtain ⟨e, part, rfl⟩ := List.exists_cons_of_ne_nil hne
          obtain ⟨rfl, hs : part ++ r.2 = s⟩ := List.cons.inj hpart
          have htaken : s.take (s.length - r.2.length) = part := by
            rw [← hs, List.length_append, Nat.add_sub_cancel, List.take_left]
          rw [List.mem_cons, not_or] at hfree
          refine hlater _ hfree.1 ?_
          rw [htaken]
          exact hfree.2
        | none =>
          by_cases hne : c = d
          · exact hne ▸ List.mem_cons_self
          · exact List.mem_cons_of_mem _ (hlater 0 hne List.not_mem_nil)
  exact hkept 0 List.not_mem_nil

/-- Where something can be read, erasing takes away a character with which what
    is read starts. So a text that loses none of them is one in which nothing
    could be read. -/
theorem count_eraseAll_lt (hread : ∀ t r, read t = some r → t.head? = some c) (ht : t <:+ s)
    (hsome : (read t).isSome) : (eraseAll read s).count c < s.count c := by
  induction s with
  | nil =>
    obtain rfl := List.suffix_nil.mp ht
    obtain ⟨r, hr⟩ := Option.isSome_iff_exists.mp hsome
    cases hread [] r hr
  | cons d s ih =>
    unfold eraseAll segments
    rw [segmentsFrom]
    cases hhead : read (d :: s) with
    | some r =>
      obtain rfl := Option.some.inj (hread _ r hhead)
      have hle := (filterMap_segmentsFrom_sublist read (s.length - r.2.length) s).count_le d
      rw [List.count_cons_self]
      exact Nat.lt_succ_of_le hle
    | none =>
      have hlater : t <:+ s := by
        refine (List.suffix_cons_iff.mp ht).resolve_left ?_
        rintro rfl
        rw [hhead] at hsome
        cases hsome
      have hkept : ((segmentsFrom read 0 s).filterMap Sum.getLeft?).count c < s.count c := ih hlater
      have hcons : (Sum.inl d :: segmentsFrom read 0 s).filterMap Sum.getLeft? =
          d :: (segmentsFrom read 0 s).filterMap Sum.getLeft? := rfl
      rw [hcons, List.count_cons, List.count_cons]
      omega

end Segments

end LiveDiagram.Text
