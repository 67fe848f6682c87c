import Mathlib.Data.List.Basic
import Mathlib.Data.List.TakeWhile

namespace LiveDiagram.Text

section Runs

variable {p : Char → Bool} {c : Char} {run rest : List Char}

/-- A run of characters of one class is taken up to the first that is not of it.
    What follows the run may be empty, and otherwise starts with that
    character. -/
theorem takeWhile_append_eq_left (hrun : ∀ d ∈ run, p d) (hrest : ∀ d ∈ rest.head?, p d = false) :
    (run ++ rest).takeWhile p = run := by
  rw [List.takeWhile_append_of_pos hrun]
  cases rest with
  | nil => rw [List.takeWhile_nil, List.append_nil]
  | cons d rest => rw [List.takeWhile_cons_of_neg (by simp [hrest d rfl]), List.append_nil]

/-- Nothing is dropped from a text that does not start with the class. -/
theorem dropWhile_eq_self (hrest : ∀ d ∈ rest.head?, p d = false) : rest.dropWhile p = rest := by
  cases rest with
  | nil => rfl
  | cons d rest => exact List.dropWhile_cons_of_neg (by simp [hrest d rfl])

/-- A run of characters of one class is dropped up to the first that is not of
    it. -/
theorem dropWhile_append_eq_right (hrun : ∀ d ∈ run, p d) (hrest : ∀ d ∈ rest.head?, p d = false) :
    (run ++ rest).dropWhile p = rest := by
  rw [List.dropWhile_append_of_pos hrun, dropWhile_eq_self hrest]

/-- A run of characters of one class stops at a character of another class, so
    what stands behind that is not looked at. -/
theorem takeWhile_append_cons (hc : p c = false) (s t : List Char) :
    (s ++ c :: t).takeWhile p = s.takeWhile p := by
  induction s with
  | nil => exact List.takeWhile_cons_of_neg (by simp [hc])
  | cons d s ih => simp only [List.cons_append, List.takeWhile_cons, ih]

/-- Dropping a run of one class goes at most as far as a character of another
    class. -/
theorem dropWhile_append_cons (hc : p c = false) (s t : List Char) :
    (s ++ c :: t).dropWhile p = s.dropWhile p ++ c :: t := by
  induction s with
  | nil => exact List.dropWhile_cons_of_neg (by simp [hc])
  | cons d s ih =>
    simp only [List.cons_append, List.dropWhile_cons, ih]
    split <;> rfl

end Runs

/-- A part that does not hold the separator is all that comes before it. -/
theorem takeWhile_append_of_head? {c : Char} {part rest : List Char} (hpart : c ∉ part)
    (hrest : ∀ d ∈ rest.head?, d = c) : (part ++ rest).takeWhile (· != c) = part := by
  refine takeWhile_append_eq_left (fun d hd => ?_) fun d hd => ?_
  · simpa using ne_of_mem_of_not_mem hd hpart
  · simpa using hrest d hd

/-- A part that does not hold the separator is dropped up to the separator. -/
theorem dropWhile_append_of_head? {c : Char} {part rest : List Char} (hpart : c ∉ part)
    (hrest : ∀ d ∈ rest.head?, d = c) : (part ++ rest).dropWhile (· != c) = rest := by
  refine dropWhile_append_eq_right (fun d hd => ?_) fun d hd => ?_
  · simpa using ne_of_mem_of_not_mem hd hpart
  · simpa using hrest d hd

/-- Two texts that agree up to what may only start with the separator have the
    same first part. Neither part holds the separator, so both end at its first
    place or at the end of the text. -/
theorem append_inj_of_head? {c : Char} {part other rest rest' : List Char} (hpart : c ∉ part)
    (hother : c ∉ other) (hrest : ∀ d ∈ rest.head?, d = c) (hrest' : ∀ d ∈ rest'.head?, d = c)
    (heq : part ++ rest = other ++ rest') : part = other ∧ rest = rest' := by
  have hfirst : part = other := by
    rw [← takeWhile_append_of_head? hpart hrest, heq, takeWhile_append_of_head? hother hrest']
  subst hfirst
  exact ⟨rfl, List.append_cancel_left heq⟩

/-- The parts before and after the first separator are those that the text was
    made of. What stands behind the separator may hold it again. -/
theorem append_cons_inj {c : Char} {part other rest rest' : List Char} (hpart : c ∉ part)
    (hother : c ∉ other) (heq : part ++ c :: rest = other ++ c :: rest') :
    part = other ∧ rest = rest' := by
  obtain ⟨hfirst, htail⟩ := append_inj_of_head? hpart hother (by simp) (by simp) heq
  exact ⟨hfirst, (List.cons.inj htail).2⟩

/-- The parts before and after the last separator are those that the text was
    made of. What stands before the separator may hold it too. -/
theorem append_cons_inj_last {c : Char} {part other rest rest' : List Char} (hrest : c ∉ rest)
    (hrest' : c ∉ rest') (heq : part ++ c :: rest = other ++ c :: rest') :
    part = other ∧ rest = rest' := by
  have hreverse := congrArg List.reverse heq
  simp only [List.reverse_append, List.reverse_cons, List.append_assoc, List.singleton_append]
    at hreverse
  obtain ⟨hlast, hfirst⟩ := append_cons_inj (by simpa using hrest) (by simpa using hrest') hreverse
  exact ⟨List.reverse_injective hfirst, List.reverse_injective hlast⟩

/-- A character that stands in a text once takes it apart. Only one of the two
    ways to write the text is known to have it once; the other then has it once
    too. -/
theorem append_cons_inj_once {c : Char} {part other rest rest' : List Char} (hpart : c ∉ part)
    (hrest : c ∉ rest) (heq : part ++ c :: rest = other ++ c :: rest') : part = other ∧ rest = rest' := by
  have hother : other.count c = 0 := by
    have hcount := congrArg (List.count c) heq
    rw [List.count_append, List.count_append, List.count_cons_self, List.count_cons_self,
      List.count_eq_zero_of_not_mem hpart, List.count_eq_zero_of_not_mem hrest] at hcount
    omega
  exact append_cons_inj hpart (List.count_eq_zero.mp hother) heq

/-- Endings of which none ends in another can be told apart, and so can what
    stands before them, which may hold an ending itself. -/
theorem append_inj_of_endings {endings : List (List Char)}
    (hends : ∀ t ∈ endings, ∀ u ∈ endings, t <:+ u → t = u) {part other rest rest' : List Char}
    (hrest : rest ∈ endings) (hrest' : rest' ∈ endings) (heq : part ++ rest = other ++ rest') :
    part = other ∧ rest = rest' := by
  have hleft : rest <:+ part ++ rest := List.suffix_append part rest
  have hright : rest' <:+ part ++ rest := heq ▸ List.suffix_append other rest'
  have hsame : rest = rest' := by
    rcases List.suffix_or_suffix_of_suffix hleft hright with h | h
    · exact hends _ hrest _ hrest' h
    · exact (hends _ hrest' _ hrest h).symm
  subst hsame
  exact ⟨List.append_cancel_right heq, rfl⟩

end LiveDiagram.Text
