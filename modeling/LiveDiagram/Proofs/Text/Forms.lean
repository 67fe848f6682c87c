import LiveDiagram.Proofs.Text.Reading

namespace LiveDiagram.Text

variable {c : Char} {keyword s rest text : List Char}

section AnyCase

/-- Only word characters are word characters in lower case. The characters that
    a keyword is compared with are lowered one by one, so this is asked of
    single characters. -/
theorem isWordChar_of_toLower (h : isWordChar c.toLower) : isWordChar c := by
  cases hupper : c.isUpper with
  | true =>
    have halphanum : c.isAlphanum = true :=
      Bool.or_eq_true_iff.mpr (.inl (Bool.or_eq_true_iff.mpr (.inl hupper)))
    rw [isWordChar, halphanum, Bool.true_or]
  | false =>
    have hlower : c.toLower = c := dif_neg (of_decide_eq_false hupper)
    rwa [hlower] at h

/-- A keyword is found in any case: what stands before the rest is some spelling
    of the keyword, one that agrees with it in lower case. -/
theorem afterAnyCase?_eq_some_iff :
    afterAnyCase? keyword s = some rest ↔ ∃ start, start ++ rest = s ∧ lower start = lower keyword := by
  induction keyword generalizing s with
  | nil => simp [afterAnyCase?, lower, eq_comm]
  | cons a keyword ih =>
    cases s with
    | nil => simp [afterAnyCase?, lower]
    | cons d s =>
      rw [afterAnyCase?]
      constructor
      · intro h
        split at h
        · rename_i had
          obtain ⟨start, rfl, hstart⟩ := ih.mp h
          refine ⟨d :: start, rfl, ?_⟩
          rw [lower, List.map_cons, ← had, ← lower, hstart, lower, lower, List.map_cons]
        · cases h
      · rintro ⟨start, hs, hstart⟩
        cases start with
        | nil => simp [lower] at hstart
        | cons b start =>
          obtain ⟨rfl, rfl⟩ := List.cons.inj hs
          obtain ⟨hhead, htail⟩ := List.cons.inj hstart
          rw [if_pos hhead.symm]
          exact ih.mpr ⟨start, rfl, htail⟩

/-- A text that spells a keyword in any case is a word if the keyword is one, so
    it has no place where a word could end. -/
theorem forall_isWordChar_of_lower_eq (hkeyword : keyword.all fun c => isWordChar c.toLower)
    (h : lower s = lower keyword) : ∀ c ∈ s, isWordChar c := by
  intro c hc
  have hmem : c.toLower ∈ lower keyword := h ▸ List.mem_map_of_mem hc
  obtain ⟨d, hd, hdc⟩ := List.mem_map.mp hmem
  exact isWordChar_of_toLower (hdc ▸ List.all_eq_true.mp hkeyword d hd)

/-- Where no word goes on, a keyword is found in a text just if it is found in
    the word before that place. Nothing behind the place has any say in it. -/
theorem isSome_afterAnyCase?_append_cons {word : List Char} (hkeyword : keyword.all fun c => isWordChar c.toLower)
    (hc : isWordChar c = false) (rest : List Char) :
    (afterAnyCase? keyword (word ++ c :: rest)).isSome = (afterAnyCase? keyword word).isSome := by
  induction keyword generalizing word with
  | nil => simp only [afterAnyCase?, Option.isSome_some]
  | cons a keyword ih =>
    obtain ⟨ha, hkeyword⟩ := Bool.and_eq_true_iff.mp hkeyword
    cases word with
    | nil =>
      have hne : a.toLower ≠ c.toLower := fun heq =>
        Bool.false_ne_true (hc.symm.trans (isWordChar_of_toLower (heq ▸ ha)))
      have hnone : afterAnyCase? (a :: keyword) (c :: rest) = none := if_neg hne
      rw [List.nil_append, hnone, afterAnyCase?]
    | cons d word =>
      rw [List.cons_append, afterAnyCase?, afterAnyCase?]
      split
      · exact ih hkeyword
      · rfl

end AnyCase

section Parts

/-- White space between two parts of a line. -/
def IsGap (s : List Char) : Prop :=
  s ≠ [] ∧ ∀ c ∈ s, isSpace c

theorem isGap_space : IsGap [' '] :=
  ⟨List.cons_ne_nil _ _, List.forall_mem_singleton.mpr rfl⟩

theorem IsGap.head?_append (h : IsGap s) (t : List Char) : ∀ c ∈ (s ++ t).head?, isWordChar c = false := by
  obtain ⟨c, rest, rfl⟩ := List.exists_cons_of_ne_nil h.1
  exact forall_mem_head?_cons (isWordChar_eq_false_of_isSpace (h.2 c List.mem_cons_self)) _

/-- Skipping white space takes all of it, and there has to be some: the text is
    a gap followed by the rest, which starts with no white space. -/
theorem skipSpaces?_eq_some_iff :
    skipSpaces? s = some rest ↔ ∃ gap, gap ++ rest = s ∧ IsGap gap ∧
      ∀ c ∈ rest.head?, isSpace c = false := by
  cases s with
  | nil => simp [skipSpaces?, IsGap]
  | cons c s =>
    rw [skipSpaces?]
    constructor
    · intro h
      split at h
      · rename_i hc
        cases h
        refine ⟨c :: s.takeWhile isSpace, ?_, ⟨List.cons_ne_nil _ _, ?_⟩,
          forall_mem_head?_dropWhile isSpace s⟩
        · rw [List.cons_append, skipSpaces, List.takeWhile_append_dropWhile]
        · exact List.forall_mem_cons.mpr ⟨hc, fun d hd => List.mem_takeWhile_imp hd⟩
      · cases h
    · rintro ⟨gap, hs, ⟨hne, hgap⟩, hrest⟩
      obtain ⟨d, gap, rfl⟩ := List.exists_cons_of_ne_nil hne
      rw [List.cons_append] at hs
      obtain ⟨rfl, rfl⟩ := List.cons.inj hs
      obtain ⟨hd, hgap⟩ := List.forall_mem_cons.mp hgap
      rw [if_pos hd, skipSpaces, dropWhile_append_eq_right hgap hrest]

/-- The word at the head of a text is the longest one: it is followed by the
    rest, which does not start so that the word could go on. -/
theorem word?_eq_some_iff {word : List Char} :
    word? s = some (word, rest) ↔
      word ++ rest = s ∧ IsWord word ∧ ∀ c ∈ rest.head?, isWordChar c = false := by
  constructor
  · intro h
    have hword := isWord_of_word? h
    unfold word? at h
    split at h
    · cases h
    · obtain ⟨rfl, rfl⟩ := Prod.mk.inj (Option.some.inj h)
      exact ⟨List.takeWhile_append_dropWhile, hword, forall_mem_head?_dropWhile isWordChar s⟩
  · rintro ⟨rfl, ⟨hne, hword⟩, hrest⟩
    exact word?_append hne hword hrest

/-- The rest of a line takes none of the white space before it, unless it would
    be empty otherwise: then it is the last of the white space. -/
def IsLineRest (text : List Char) : Prop :=
  isFilledLine text ∧ ((∀ c ∈ text.head?, isSpace c = false) ∨ text.length = 1)

/-- Behind the first character of a filled line there is nothing or another
    filled line. -/
theorem eq_nil_or_isFilledLine (h : isFilledLine (c :: s)) : s = [] ∨ isFilledLine s := by
  simp only [isFilledLine, List.any_cons, Bool.and_eq_true, Bool.not_eq_true', Bool.or_eq_false_iff] at h
  by_cases hne : s = []
  · exact .inl hne
  · exact .inr (by simp [isFilledLine, h.2.2, hne])

variable {least : Nat}

/-- What the rest of a line is taken from: at least the required white space,
    all that is skipped is white space, and what is taken is a rest in the sense
    of `IsLineRest`. -/
theorem exists_of_restOfLine (h : restOfLine least s = some text) :
    ∃ gap, gap ++ text = s ∧ least ≤ gap.length ∧ (∀ c ∈ gap, isSpace c) ∧ IsLineRest text := by
  have hspaces : ∀ c ∈ s.takeWhile isSpace, isSpace c := fun c hc => List.mem_takeWhile_imp hc
  simp only [restOfLine, afterSpaces] at h
  split at h
  · rename_i hall
    obtain ⟨hleast, hfilled⟩ : least ≤ (s.takeWhile isSpace).length ∧ isFilledLine (s.dropWhile isSpace) := by
      simpa using hall
    cases h
    exact ⟨_, List.takeWhile_append_dropWhile, hleast, hspaces, hfilled,
      .inl (forall_mem_head?_dropWhile isSpace s)⟩
  · rename_i hall
    split at h
    · cases h
    · rename_i c hlast
      split at h
      · rename_i hone
        obtain ⟨hleast, hfilled⟩ : least < (s.takeWhile isSpace).length ∧
            isFilledLine (c :: s.dropWhile isSpace) := by simpa using hone
        cases h
        have hempty : s.dropWhile isSpace = [] :=
          (eq_nil_or_isFilledLine hfilled).resolve_right fun hrest => hall (by simp [hrest, hleast.le])
        have hgap : (s.takeWhile isSpace).dropLast ++ [c] = s.takeWhile isSpace :=
          List.dropLast_append_getLast? c hlast
        refine ⟨(s.takeWhile isSpace).dropLast, ?_, ?_, fun d hd => hspaces d (List.dropLast_subset _ hd), hfilled,
          .inr (by rw [hempty]; rfl)⟩
        · rw [← List.singleton_append, ← List.append_assoc, hgap, List.takeWhile_append_dropWhile]
        · rw [List.length_dropLast]
          exact Nat.le_sub_one_of_lt hleast
      · cases h

/-- Behind enough white space a rest of a line is found as it was written. It
    either starts with no white space or is a single character of it, so the
    reader has no other way to divide the text. -/
theorem restOfLine_append {gap : List Char} (hleast : least ≤ gap.length) (hgap : ∀ c ∈ gap, isSpace c)
    (htext : IsLineRest text) : restOfLine least (gap ++ text) = some text := by
  obtain ⟨hfilled, hstart⟩ := htext
  by_cases hhead : ∀ c ∈ text.head?, isSpace c = false
  · have htaken : (gap ++ text).takeWhile isSpace = gap := takeWhile_append_eq_left hgap hhead
    have hdropped : (gap ++ text).dropWhile isSpace = text := dropWhile_append_eq_right hgap hhead
    simp [restOfLine, afterSpaces, htaken, hdropped, hleast, hfilled]
  · obtain ⟨c, rfl⟩ := List.length_eq_one_iff.mp (hstart.resolve_left hhead)
    have hc : isSpace c := by simpa using hhead
    have hall : ∀ d ∈ gap ++ [c], isSpace d :=
      List.forall_mem_append.mpr ⟨hgap, List.forall_mem_singleton.mpr hc⟩
    have htaken : (gap ++ [c]).takeWhile isSpace = gap ++ [c] := List.takeWhile_eq_self_iff.mpr hall
    have hdropped : (gap ++ [c]).dropWhile isSpace = [] := List.dropWhile_eq_nil_iff.mpr hall
    have hnothing : isFilledLine [] = false := rfl
    simp [restOfLine, afterSpaces, htaken, hdropped, hnothing, hfilled, Nat.lt_succ_of_le hleast]

/-- The rest of a line, behind white space: the two lemmas above in one, so that
    the forms of lines can be told from their text alone. -/
theorem restOfLine_eq_some_iff :
    restOfLine least s = some text ↔
      ∃ gap, gap ++ text = s ∧ least ≤ gap.length ∧ (∀ c ∈ gap, isSpace c) ∧ IsLineRest text := by
  refine ⟨exists_of_restOfLine, ?_⟩
  rintro ⟨gap, rfl, hleast, hgap, htext⟩
  exact restOfLine_append hleast hgap htext

end Parts

end LiveDiagram.Text
