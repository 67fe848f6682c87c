import Mathlib.Data.List.TakeWhile
import LiveDiagram.Proofs.Text.Separators
import LiveDiagram.Text.Scan

namespace LiveDiagram.Text

variable {α : Type} {p : Char → Bool} {c : Char} {start s t rest : List Char}

/-- What holds of the first character holds of every first one. Readers ask this
    of what follows a part, which may be empty too. -/
theorem forall_mem_head?_cons {P : Char → Prop} (hc : P c) (s : List Char) : ∀ d ∈ (c :: s).head?, P d := by
  intro d hd
  obtain rfl := Option.some.inj hd
  exact hc

section Start

@[simp] theorem after?_append (start s : List Char) : after? start (start ++ s) = some s := by
  induction start with
  | nil => rw [List.nil_append, after?]
  | cons a start ih => rw [List.cons_append, after?, if_pos rfl, ih]

/-- A start that is found is followed by the rest, and the two make up the
    text. -/
theorem append_of_after? (h : after? start s = some rest) : start ++ rest = s := by
  induction start generalizing s with
  | nil =>
    rw [after?, Option.some.injEq] at h
    rw [List.nil_append, h]
  | cons a start ih =>
    cases s with
    | nil => cases h
    | cons c s =>
      rw [after?] at h
      split at h
      · rename_i hac
        rw [List.cons_append, ih h, hac]
      · cases h

theorem suffix_of_after? (h : after? start s = some rest) : rest <:+ s :=
  ⟨start, append_of_after? h⟩

/-- A text without one of the characters of a start does not start so. Most
    forms of statements are ruled out by such a character. -/
theorem after?_eq_none (hc : c ∈ start) (hs : c ∉ s) : after? start s = none := by
  cases h : after? start s with
  | none => rfl
  | some rest => exact absurd (append_of_after? h ▸ List.mem_append_left rest hc) hs

/-- A start is found in a text just if it is a prefix of the text. -/
theorem after?_isSome : (after? start s).isSome ↔ start <+: s := by
  constructor
  · intro h
    obtain ⟨rest, hrest⟩ := Option.isSome_iff_exists.mp h
    exact ⟨rest, append_of_after? hrest⟩
  · rintro ⟨rest, rfl⟩
    rw [after?_append, Option.isSome_some]

theorem occursIn_iff {part : List Char} : occursIn part s = true ↔ part <:+: s := by
  induction s with
  | nil => simp [occursIn]
  | cons c s ih => rw [occursIn, Bool.or_eq_true, after?_isSome, ih, List.infix_cons_iff]

/-- A start does not reach past a character that it does not hold: it is found
    within what stands before that character or not at all. -/
theorem after?_append_cons (hc : c ∉ start) (s t : List Char) :
    after? start (s ++ c :: t) = (after? start s).map (· ++ c :: t) := by
  induction start generalizing s with
  | nil => simp only [after?, Option.map_some]
  | cons a start ih =>
    obtain ⟨hne, hstart⟩ : c ≠ a ∧ c ∉ start := by simpa using hc
    cases s with
    | nil => simp only [List.nil_append, after?, if_neg hne.symm, Option.map_none]
    | cons d s =>
      rw [List.cons_append, after?, after?]
      split
      · exact ih hstart s
      · rfl

end Start

section Words

/-- A word is read up to the first character that cannot belong to it, here what
    follows the word in the text. -/
theorem word?_append (hne : s ≠ []) (hs : ∀ d ∈ s, isWordChar d)
    (ht : ∀ d ∈ t.head?, isWordChar d = false) : word? (s ++ t) = some (s, t) := by
  rw [word?, takeWhile_append_eq_left hs ht, dropWhile_append_eq_right hs ht]
  cases s with
  | nil => exact absurd rfl hne
  | cons d s => rfl

theorem word?_cons_eq_none (hc : isWordChar c = false) (s : List Char) : word? (c :: s) = none := by
  rw [word?, List.takeWhile_cons_of_neg (by simp [hc])]

/-- A word is not empty, and all its characters are word characters. -/
def IsWord (s : List Char) : Prop :=
  s ≠ [] ∧ ∀ c ∈ s, isWordChar c

instance (s : List Char) : Decidable (IsWord s) :=
  decidable_of_iff (s ≠ [] ∧ s.all isWordChar) (and_congr_right fun _ => List.all_eq_true)

theorem isWord_of_word? {word : List Char} (h : word? s = some (word, rest)) : IsWord word := by
  unfold word? at h
  split at h
  · cases h
  · rename_i hne
    obtain ⟨rfl, -⟩ := Prod.mk.inj (Option.some.inj h)
    exact ⟨hne, fun c hc => List.mem_takeWhile_imp hc⟩

theorem suffix_of_word? {word : List Char} (h : word? s = some (word, rest)) : rest <:+ s := by
  unfold word? at h
  split at h
  · cases h
  · obtain ⟨-, rfl⟩ := Prod.mk.inj (Option.some.inj h)
    exact List.dropWhile_suffix isWordChar

theorem isWordChar_eq_false_of_isSpace (hc : isSpace c) : isWordChar c = false := by
  simp only [isSpace, isBlank, Bool.or_eq_true, beq_iff_eq] at hc
  rcases hc with ((((rfl | rfl) | rfl) | rfl) | rfl) | rfl
  all_goals decide

theorem isSpace_eq_false_of_isWordChar (hc : isWordChar c) : isSpace c = false := by
  rw [← Bool.not_eq_true]
  intro hspace
  exact Bool.false_ne_true ((isWordChar_eq_false_of_isSpace hspace).symm.trans hc)

/-- What is no white space is no blank; white space has two characters more than
    blanks have. -/
theorem isBlank_eq_false_of_isSpace (hc : isSpace c = false) : isBlank c = false :=
  (Bool.or_eq_false_iff.mp (Bool.or_eq_false_iff.mp hc).1).1

theorem isBlank_eq_false_of_isWordChar (hc : isWordChar c) : isBlank c = false :=
  isBlank_eq_false_of_isSpace (isSpace_eq_false_of_isWordChar hc)

theorem IsWord.exists_cons (h : IsWord s) : ∃ c rest, s = c :: rest ∧ isWordChar c := by
  obtain ⟨c, rest, rfl⟩ := List.exists_cons_of_ne_nil h.1
  exact ⟨c, rest, rfl, h.2 c List.mem_cons_self⟩

/-- No character of another class stands in a word. This is how a mark, a quote
    or a bracket is known to be outside of ids. -/
theorem IsWord.not_mem (h : IsWord s) (hc : isWordChar c = false) : c ∉ s := fun hmem =>
  Bool.false_ne_true (hc.symm.trans (h.2 c hmem))

/-- No white space is left before a word, so a reader that skips white space
    stops there. -/
theorem IsWord.head?_append (h : IsWord s) (t : List Char) : ∀ c ∈ (s ++ t).head?, isSpace c = false := by
  obtain ⟨c, rest, rfl, hc⟩ := h.exists_cons
  exact forall_mem_head?_cons (isSpace_eq_false_of_isWordChar hc) _

end Words

section Spaces

theorem skipSpaces_of_head? (hs : ∀ d ∈ s.head?, isSpace d = false) : skipSpaces s = s :=
  dropWhile_eq_self hs

theorem skipSpaces_cons (hc : isSpace c) (hs : ∀ d ∈ s.head?, isSpace d = false) :
    skipSpaces (c :: s) = s := by
  rw [skipSpaces, List.dropWhile_cons_of_pos hc, dropWhile_eq_self hs]

theorem skipSpaces_suffix (s : List Char) : skipSpaces s <:+ s :=
  List.dropWhile_suffix isSpace

theorem skipSpaces?_cons (hc : isSpace c) (hs : ∀ d ∈ s.head?, isSpace d = false) :
    skipSpaces? (c :: s) = some s := by
  rw [skipSpaces?, if_pos hc, skipSpaces_of_head? hs]

/-- White space before a part that starts with none is skipped as a whole, and
    nothing of it has to be given back to the part. -/
theorem afterSpaces_append {least : Nat} {q : List Char → Bool} {gap : List Char} (hleast : least ≤ gap.length)
    (hgap : ∀ d ∈ gap, isSpace d) (hs : ∀ d ∈ s.head?, isSpace d = false) (hq : q s) :
    afterSpaces least q (gap ++ s) = some s := by
  simp [afterSpaces, takeWhile_append_eq_left hgap hs, dropWhile_append_eq_right hgap hs, hleast, hq]

/-- One character of white space before a part that starts with none. -/
theorem afterSpaces_cons {q : List Char → Bool} (hc : isSpace c) (hs : ∀ d ∈ s.head?, isSpace d = false)
    (hq : q s) : afterSpaces 1 q (c :: s) = some s :=
  afterSpaces_append (Nat.le_refl [c].length) (List.forall_mem_singleton.mpr hc) hs hq

/-- The part after the white space satisfies its condition and is a suffix of
    the text, whether or not a character was given back. -/
theorem of_afterSpaces {least : Nat} {q : List Char → Bool} (h : afterSpaces least q s = some rest) :
    q rest ∧ rest <:+ s := by
  simp only [afterSpaces] at h
  split at h
  · rename_i hq
    cases h
    exact ⟨(Bool.and_eq_true_iff.mp hq).2, List.dropWhile_suffix isSpace⟩
  · split at h
    · cases h
    · rename_i c hc
      split at h
      · rename_i hq
        cases h
        refine ⟨(Bool.and_eq_true_iff.mp hq).2, ?_⟩
        refine ⟨(s.takeWhile isSpace).dropLast, ?_⟩
        rw [← List.singleton_append, ← List.append_assoc, List.dropLast_append_getLast? c hc,
          List.takeWhile_append_dropWhile]
      · cases h

end Spaces

section Searching

/-- What can be read at the head of a text is what a search finds. -/
theorem search_eq_some {read : List Char → Option α} {a : α} (h : read s = some a) :
    search read s = some a := by
  cases s with
  | nil => exact h
  | cons c s => rw [search, h]

/-- What is found is read at some place of the text, which is a suffix of it. -/
theorem exists_of_search {read : List Char → Option α} {a : α} (h : search read s = some a) :
    ∃ t, t <:+ s ∧ read t = some a := by
  induction s with
  | nil => exact ⟨[], List.suffix_rfl, h⟩
  | cons c s ih =>
    rw [search] at h
    split at h
    · rename_i hread
      cases h
      exact ⟨c :: s, List.suffix_rfl, hread⟩
    · obtain ⟨t, ht, hread⟩ := ih h
      exact ⟨t, ht.trans (List.suffix_cons c s), hread⟩

/-- Nothing is found in what stands before a text if nothing can be read from
    there, and the search goes on in the text. -/
theorem search_append {read : List Char → Option α} (h : ∀ u, u <:+ t → u ≠ [] → read (u ++ s) = none) :
    search read (t ++ s) = search read s := by
  induction t with
  | nil => rfl
  | cons c t ih =>
    have hread : read (c :: (t ++ s)) = none := h (c :: t) List.suffix_rfl (List.cons_ne_nil c t)
    rw [List.cons_append, search, hread]
    exact ih fun u hu => h u (hu.trans (List.suffix_cons c t))

/-- Nothing is found in a text of which no suffix can be read, the empty one
    included. -/
theorem search_eq_none {read : List Char → Option α} (h : ∀ t, t <:+ s → read t = none) :
    search read s = none := by
  rw [Option.eq_none_iff_forall_ne_some]
  intro a ha
  obtain ⟨t, ht, hread⟩ := exists_of_search ha
  rw [h t ht] at hread
  cases hread

variable {read : List Char → Option (α × List Char)}

/-- A text of which no suffix can be read is cut into its characters, since no
    part is found in it. -/
theorem segments_eq_map_inl (h : ∀ t, t <:+ s → read t = none) : segments read s = s.map .inl := by
  unfold segments
  induction s with
  | nil => rfl
  | cons c s ih =>
    rw [segmentsFrom, h _ List.suffix_rfl, List.map_cons]
    exact congrArg _ (ih fun t ht => h t (ht.trans (List.suffix_cons c s)))

theorem findAll_eq_nil (h : ∀ t, t <:+ s → read t = none) : findAll read s = [] := by
  simp [findAll, segments_eq_map_inl h, List.filterMap_map, Function.comp_def]

/-- Nothing is erased from a text of which no suffix can be read. -/
theorem eraseAll_eq_self (h : ∀ t, t <:+ s → read t = none) : eraseAll read s = s := by
  simp [eraseAll, segments_eq_map_inl h, List.filterMap_map, Function.comp_def]

end Searching

section Ends

/-- What is left when a run is dropped starts with no character of its class. -/
theorem forall_mem_head?_dropWhile (p : Char → Bool) (s : List Char) :
    ∀ c ∈ (s.dropWhile p).head?, p c = false := by
  intro c hc
  have hhead := List.head?_dropWhile_not p s
  rw [Option.mem_def] at hc
  simpa [hc] using hhead

/-- Nothing is dropped from a text that ends in a character of another class,
    nor from the empty one. -/
theorem dropTrailing_eq_self (h : ∀ d ∈ s.getLast?, p d = false) : dropTrailing p s = s := by
  have hreverse : s.reverse.dropWhile p = s.reverse :=
    dropWhile_eq_self (by simpa using h)
  rw [dropTrailing, hreverse, List.reverse_reverse]

theorem mem_dropTrailing_or {d : Char} (hd : d ∈ s) : d ∈ dropTrailing p s ∨ p d := by
  rw [← List.mem_reverse, ← List.takeWhile_append_dropWhile (p := p) (l := s.reverse), List.mem_append] at hd
  rcases hd with hdropped | hkept
  · exact .inr (List.mem_takeWhile_imp hdropped)
  · exact .inl (List.mem_reverse.mpr hkept)

theorem isPrefix_dropTrailing (p : Char → Bool) (s : List Char) : dropTrailing p s <+: s := by
  rw [← List.reverse_suffix, dropTrailing, List.reverse_reverse]
  exact List.dropWhile_suffix p

/-- Trimming adds no characters, so what a text does not hold its trimmed form
    does not hold either. -/
theorem mem_of_mem_trim {d : Char} (hd : d ∈ trim s) : d ∈ s :=
  (List.dropWhile_suffix isBlank).subset ((isPrefix_dropTrailing isBlank _).subset hd)

/-- The run of characters of one class at the end is dropped, and no more than
    that if what stands before it ends in another class. -/
theorem dropTrailing_append (hs : ∀ d ∈ s.getLast?, p d = false) (ht : ∀ d ∈ t, p d) :
    dropTrailing p (s ++ t) = s := by
  rw [dropTrailing, List.reverse_append, dropWhile_append_eq_right (by simpa using ht) (by simpa using hs),
    List.reverse_reverse]

/-- Nothing is stripped from a text that neither starts nor ends with the
    class. -/
theorem strip_eq_self (hhead : ∀ d ∈ s.head?, p d = false) (hlast : ∀ d ∈ s.getLast?, p d = false) :
    strip p s = s := by
  rw [strip, dropWhile_eq_self hhead, dropTrailing_eq_self hlast]

/-- Nothing is trimmed from a text that neither starts nor ends with a blank. -/
theorem trim_eq_self (hhead : ∀ d ∈ s.head?, isBlank d = false)
    (hlast : ∀ d ∈ s.getLast?, isBlank d = false) : trim s = s :=
  strip_eq_self hhead hlast

/-- A character of the class at the end is stripped. -/
theorem strip_append_singleton (hc : p c) (s : List Char) : strip p (s ++ [c]) = strip p s := by
  unfold strip dropTrailing
  rw [List.dropWhile_append]
  split
  · rename_i hstripped
    have hleft : s.dropWhile p = [] := List.isEmpty_iff.mp hstripped
    rw [hleft, List.dropWhile_cons_of_pos hc, List.dropWhile_nil]
  · rw [List.reverse_append, List.reverse_singleton, List.singleton_append,
      List.dropWhile_cons_of_pos hc]

theorem strip_cons (hc : p c) (s : List Char) : strip p (c :: s) = strip p s := by
  rw [strip, List.dropWhile_cons_of_pos hc, ← strip]

/-- What is stripped of a class of characters starts with none of them. -/
theorem head?_strip (p : Char → Bool) (s : List Char) : ∀ d ∈ (strip p s).head?, p d = false := by
  intro d hd
  obtain ⟨rest, hrest⟩ := isPrefix_dropTrailing p (s.dropWhile p)
  refine forall_mem_head?_dropWhile p s d ?_
  rw [← hrest, List.head?_append]
  exact Option.mem_def.mpr (by rw [← strip, Option.mem_def.mp hd, Option.some_or])

/-- What is stripped of a class of characters ends in none of them. -/
theorem getLast?_strip (p : Char → Bool) (s : List Char) : ∀ d ∈ (strip p s).getLast?, p d = false := by
  intro d hd
  rw [strip, dropTrailing, List.getLast?_reverse] at hd
  exact forall_mem_head?_dropWhile p _ d hd

theorem mem_strip_or {d : Char} (hd : d ∈ s) : d ∈ strip p s ∨ p d := by
  rw [← List.takeWhile_append_dropWhile (p := p) (l := s), List.mem_append] at hd
  rcases hd with hdropped | hkept
  · exact .inr (List.mem_takeWhile_imp hdropped)
  · exact mem_dropTrailing_or hkept

/-- What is stripped is a run of characters of the class at either end; what is
    left stands between the two. -/
theorem exists_append_strip (p : Char → Bool) (s : List Char) :
    ∃ front back, s = front ++ (strip p s ++ back) ∧ (∀ d ∈ front, p d) ∧ ∀ d ∈ back, p d := by
  have hback : dropTrailing p (s.dropWhile p) ++ ((s.dropWhile p).reverse.takeWhile p).reverse = s.dropWhile p := by
    rw [dropTrailing, ← List.reverse_append, List.takeWhile_append_dropWhile, List.reverse_reverse]
  refine ⟨s.takeWhile p, ((s.dropWhile p).reverse.takeWhile p).reverse, ?_, fun d hd => List.mem_takeWhile_imp hd,
    fun d hd => List.mem_takeWhile_imp (List.mem_reverse.mp hd)⟩
  rw [strip, hback, List.takeWhile_append_dropWhile]

/-- Nothing is left of a text of characters of the class only, and only then is
    nothing left. -/
theorem strip_eq_nil_iff : strip p s = [] ↔ ∀ d ∈ s, p d := by
  constructor
  · intro h d hd
    refine (mem_strip_or hd).resolve_left ?_
    rw [h]
    exact List.not_mem_nil
  · intro h
    rw [strip, List.dropWhile_eq_nil_iff.mpr h]
    rfl

/-- Runs of the class around a text that has none of it are stripped. The text
    must not be empty, since then the two runs are one. -/
theorem strip_append_append {front back : List Char} (hfront : ∀ d ∈ front, p d) (hback : ∀ d ∈ back, p d)
    (hs : ∀ d ∈ s, p d = false) (hne : s ≠ []) : strip p (front ++ (s ++ back)) = s := by
  have hhead : ∀ d ∈ (s ++ back).head?, p d = false := by
    intro d hd
    rw [List.head?_append_of_ne_nil s hne] at hd
    exact hs d (List.mem_of_mem_head? hd)
  rw [strip, dropWhile_append_eq_right hfront hhead,
    dropTrailing_append (fun d hd => hs d (List.mem_of_mem_getLast? hd)) hback]

/-- Nothing is left to trim without the white space at both ends, since every
    blank is white space. -/
theorem trim_strip_isSpace (s : List Char) : trim (strip isSpace s) = strip isSpace s :=
  trim_eq_self (fun d hd => isBlank_eq_false_of_isSpace (head?_strip isSpace s d hd)) fun d hd =>
    isBlank_eq_false_of_isSpace (getLast?_strip isSpace s d hd)

/-- Trimming leaves a word as it is, which neither starts nor ends with a
    blank. -/
theorem IsWord.trim_eq_self (h : IsWord s) : trim s = s := by
  have hblank : ∀ d ∈ s, isBlank d = false := fun d hd => isBlank_eq_false_of_isWordChar (h.2 d hd)
  exact Text.trim_eq_self (fun d hd => hblank d (List.mem_of_mem_head? hd)) fun d hd =>
    hblank d (List.mem_of_mem_getLast? hd)

/-- A text that trimming leaves as it is does not start with a blank. -/
theorem head?_of_trim_eq_self (h : trim s = s) : ∀ d ∈ s.head?, isBlank d = false := by
  rw [← h]
  exact head?_strip isBlank s

/-- A text that trimming leaves as it is does not end in a blank. -/
theorem getLast?_of_trim_eq_self (h : trim s = s) : ∀ d ∈ s.getLast?, isBlank d = false := by
  rw [← h]
  exact getLast?_strip isBlank s

end Ends

/-- Joined parts are the first one, and each other one behind a separator of its
    own. In this form nothing has to be known of the last part. -/
theorem intercalate_cons_eq_flatMap (sep part : List Char) (parts : List (List Char)) :
    List.intercalate sep (part :: parts) = part ++ parts.flatMap (sep ++ ·) := by
  induction parts generalizing part with
  | nil => rw [List.intercalate_singleton, List.flatMap_nil, List.append_nil]
  | cons next parts ih =>
    rw [List.intercalate_cons_cons, ih, List.flatMap_cons, List.append_assoc, List.append_assoc]

/-- What holds of parts and is kept by joining two texts with a separator holds
    of the joined parts. There has to be a part, since joining none gives the
    empty text. -/
theorem intercalate_induction {P : List Char → Prop} {sep : List Char} {parts : List (List Char)}
    (hne : parts ≠ []) (hpart : ∀ part ∈ parts, P part) (hjoin : ∀ s t, P s → P t → P (s ++ sep ++ t)) :
    P (List.intercalate sep parts) := by
  induction parts with
  | nil => exact absurd rfl hne
  | cons part parts ih =>
    obtain ⟨hfirst, hrest⟩ := List.forall_mem_cons.mp hpart
    cases parts with
    | nil =>
      rw [List.intercalate_singleton]
      exact hfirst
    | cons next parts =>
      rw [List.intercalate_cons_cons]
      exact hjoin _ _ hfirst (ih (List.cons_ne_nil next parts) hrest)

end LiveDiagram.Text
