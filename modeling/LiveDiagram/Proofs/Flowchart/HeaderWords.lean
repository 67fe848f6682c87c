import LiveDiagram.Flowchart.Line
import LiveDiagram.Proofs.Text.Reading

namespace LiveDiagram

open Text

variable {c : Char} {s t rest : List Char}

namespace Text

/-- The words of a text. Next to every character that belongs to no word one of
    them ends, if only the empty one, so the words of a text can be told part by
    part. -/
def words (s : List Char) : List (List Char) :=
  s.splitOnP fun c => !isWordChar c

/-- A character that belongs to no word divides the words of a text into those
    before and those behind it. -/
theorem words_append_cons (hc : isWordChar c = false) (s t : List Char) :
    words (s ++ c :: t) = words s ++ words t :=
  List.splitOnP_append_cons s t (by simp [hc])

theorem words_cons_of_not_isWordChar (hc : isWordChar c = false) (s : List Char) :
    words (c :: s) = [] :: words s := by
  rw [words, List.splitOnP_cons_eq_if_modifyHead, if_pos (by simp [hc]), words]

/-- A word character in front of a text makes the first of its words longer. -/
theorem words_cons_of_isWordChar (hc : isWordChar c) (s : List Char) :
    words (c :: s) = (words s).modifyHead (c :: ·) := by
  rw [words, List.splitOnP_cons_eq_if_modifyHead, if_neg (by simp [hc]), words]

theorem words_of_forall_isWordChar (hs : ∀ c ∈ s, isWordChar c) : words s = [s] :=
  List.splitOnP_eq_singleton fun c hc => by simp [hs c hc]

/-- The first word of a text is what it starts with, up to the first character
    that belongs to no word. -/
theorem head?_words (s : List Char) : (words s).head? = some (s.takeWhile isWordChar) := by
  induction s with
  | nil => rfl
  | cons c s ih =>
    cases hc : isWordChar c with
    | false =>
      rw [words_cons_of_not_isWordChar hc, List.takeWhile_cons_of_neg (by simp [hc]), List.head?_cons]
    | true =>
      rw [words_cons_of_isWordChar hc, List.takeWhile_cons_of_pos hc, List.head?_modifyHead, ih,
        Option.map_some]

end Text

namespace Flowchart

/-- The words that open a flowchart. -/
def headerWords : List (List Char) :=
  ["flowchart".toList, "graph".toList]

/-- No word of the text opens a flowchart. -/
def HeaderFree (s : List Char) : Prop :=
  ∀ w ∈ words s, w ∉ headerWords

instance (s : List Char) : Decidable (HeaderFree s) :=
  inferInstanceAs (Decidable (∀ w ∈ words s, w ∉ headerWords))

/-- Whether a text has a header word can be told on both sides of a character
    that belongs to no word. -/
theorem headerFree_append_cons (hc : isWordChar c = false) :
    HeaderFree (s ++ c :: t) ↔ HeaderFree s ∧ HeaderFree t := by
  unfold HeaderFree
  rw [words_append_cons hc]
  exact List.forall_mem_append

/-- A character that belongs to no word brings no header word to a text. -/
theorem headerFree_cons (hc : isWordChar c = false) : HeaderFree (c :: s) ↔ HeaderFree s := by
  rw [← List.nil_append (c :: s), headerFree_append_cons hc]
  exact and_iff_right (by decide)

/-- A single word has no header word if it is none. -/
theorem headerFree_of_forall_isWordChar (hs : ∀ c ∈ s, isWordChar c) (hheader : s ∉ headerWords) :
    HeaderFree s := by
  intro w hw
  rw [words_of_forall_isWordChar hs, List.mem_singleton] at hw
  rw [hw]
  exact hheader

/-- What follows a header word starts a part of its own only if the word has
    ended, so the first word of the text is that header word. -/
theorem takeWhile_mem_headerWords (h : afterHeaderWord? s = some rest) (hrest : isWordEnd rest) :
    s.takeWhile isWordChar ∈ headerWords := by
  obtain ⟨word, hword, hs⟩ : ∃ word ∈ headerWords, word ++ rest = s := by
    rw [afterHeaderWord?, Option.orElse_eq_orElse, Option.orElse_eq_or, Option.or_eq_some_iff] at h
    rcases h with hafter | ⟨-, hafter⟩
    · exact ⟨_, List.mem_cons_self, append_of_after? hafter⟩
    · exact ⟨_, List.mem_cons_of_mem _ List.mem_cons_self, append_of_after? hafter⟩
  have hchars : ∀ c ∈ word, isWordChar c := by
    have hall : ∀ word ∈ headerWords, word.all isWordChar := by decide
    exact List.all_eq_true.mp (hall word hword)
  have hend : ∀ c ∈ rest.head?, isWordChar c = false := by
    intro c hc
    rw [Option.mem_def] at hc
    simpa [isWordEnd, hc] using hrest
  rw [← hs, takeWhile_append_eq_left hchars hend]
  exact hword

/-- A line is no header if its first word is no header word. -/
theorem isHeader_eq_false (h : s.takeWhile isWordChar ∉ headerWords) : isHeader s = false := by
  rw [← Bool.not_eq_true]
  intro hheader
  rw [isHeader, Option.any_eq_true] at hheader
  obtain ⟨rest, hafter, hrest⟩ := hheader
  exact h (takeWhile_mem_headerWords hafter hrest)

/-- No direction is read at the head of a text of which the first word is no
    header word. -/
theorem directionAt?_eq_none (h : s.takeWhile isWordChar ∉ headerWords) : directionAt? s = none := by
  cases hdirection : directionAt? s with
  | none => rfl
  | some d =>
    unfold directionAt? at hdirection
    simp only [Option.bind_eq_bind, Option.bind_eq_some_iff] at hdirection
    obtain ⟨rest, hafter, spaced, hspaced, -⟩ := hdirection
    refine absurd (takeWhile_mem_headerWords hafter ?_) h
    cases rest with
    | nil => rfl
    | cons c rest =>
      rw [skipSpaces?] at hspaced
      split at hspaced
      · rename_i hc
        simp [isWordEnd, isWordChar_eq_false_of_isSpace hc]
      · cases hspaced

/-- No direction is found where the words that start in the text are no header
    words. The first one has started before if the text starts inside a word,
    and then it does not count. The induction is on the text. -/
theorem directionIn?_eq_none {inWord : Bool} {s : List Char}
    (h : ∀ w ∈ if inWord then (words s).tail else words s, w ∉ headerWords) :
    directionIn? inWord s = none := by
  induction s generalizing inWord with
  | nil => rfl
  | cons c s ih =>
    have hhere : (if inWord then none else directionAt? (c :: s)) = none := by
      cases inWord with
      | true => rfl
      | false => exact directionAt?_eq_none (h _ (List.mem_of_mem_head? (head?_words (c :: s))))
    rw [directionIn?, hhere]
    refine ih fun w hw => h w ?_
    have hlater : w ∈ (words (c :: s)).tail := by
      cases hc : isWordChar c with
      | false =>
        rw [words_cons_of_not_isWordChar hc, List.tail_cons]
        simpa [hc] using hw
      | true =>
        rw [words_cons_of_isWordChar hc, List.tail_modifyHead]
        simpa [hc] using hw
    split
    · exact hlater
    · exact List.mem_of_mem_tail hlater

namespace HeaderFree

theorem directionIn?_eq_none (h : HeaderFree s) : directionIn? false s = none :=
  Flowchart.directionIn?_eq_none h

theorem isHeader_eq_false (h : HeaderFree s) : isHeader s = false :=
  Flowchart.isHeader_eq_false (h _ (List.mem_of_mem_head? (head?_words s)))

end HeaderFree

end Flowchart

end LiveDiagram
