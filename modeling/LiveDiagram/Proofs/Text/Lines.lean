import Mathlib.Data.List.Basic
import Mathlib.Data.List.TakeWhile
import LiveDiagram.Proofs.Text.Reading
import LiveDiagram.Text.Lines

namespace LiveDiagram.Text

variable {sep : Char}

/-- Splitting is that of the library, whose lemmas about joined parts thereby
    apply. -/
theorem splitOn_eq (s : List Char) : splitOn sep s = s.splitOn sep := by
  induction s with
  | nil => rfl
  | cons c s ih =>
    rw [splitOn, ih, List.splitOn_cons_eq_if_modifyHead]
    by_cases heq : c = sep
    · simp [heq]
    · obtain ⟨part, parts, hparts⟩ := List.exists_cons_of_ne_nil (List.splitOn_ne_nil sep s)
      simp [heq, hparts, consFirst]

/-- No part between separators holds the separator, whichever text was split. -/
theorem not_mem_of_mem_splitOn {s part : List Char} (hpart : part ∈ splitOn sep s) : sep ∉ part := by
  induction s generalizing part with
  | nil =>
    obtain rfl : part = [] := by simpa [splitOn] using hpart
    exact List.not_mem_nil
  | cons c s ih =>
    rw [splitOn] at hpart
    split at hpart
    · obtain rfl | h := List.mem_cons.mp hpart
      · exact List.not_mem_nil
      · exact ih h
    · rename_i hne
      cases hparts : splitOn sep s with
      | nil =>
        obtain rfl : part = [c] := by simpa [hparts, consFirst] using hpart
        simpa using Ne.symm hne
      | cons first parts =>
        rw [hparts, consFirst, List.mem_cons] at hpart
        obtain rfl | h := hpart
        · simpa using ⟨Ne.symm hne, ih (hparts ▸ List.mem_cons_self)⟩
        · exact ih (hparts ▸ List.mem_cons_of_mem _ h)

/-- Joining keeps the characters of every part, whatever is put between them. -/
theorem mem_intercalate_of_mem {c : Char} {between part : List Char} {parts : List (List Char)}
    (hpart : part ∈ parts)
    (hc : c ∈ part) : c ∈ List.intercalate between parts := by
  induction parts with
  | nil => cases hpart
  | cons first parts ih =>
    cases parts with
    | nil =>
      rw [List.intercalate_singleton, ← List.mem_singleton.mp hpart]
      exact hc
    | cons next parts =>
      rw [List.intercalate_cons_cons, List.mem_append]
      obtain rfl | hlater := List.mem_cons.mp hpart
      · exact .inl (List.mem_append_left _ hc)
      · exact .inr (ih hlater)

/-- The parts are made of the characters of the text. -/
theorem mem_of_mem_splitOn {c : Char} {s part : List Char} (hpart : part ∈ splitOn sep s) (hc : c ∈ part) :
    c ∈ s := by
  have hjoined : [sep].intercalate (s.splitOn sep) = s := List.intercalate_splitOn sep
  rw [splitOn_eq] at hpart
  rw [← hjoined]
  exact mem_intercalate_of_mem hpart hc

theorem mem_of_mem_dropReturn {c : Char} {line : List Char} (hc : c ∈ dropReturn line) : c ∈ line := by
  rw [dropReturn] at hc
  split at hc
  · exact List.dropLast_subset line hc
  · exact hc

/-- No line of a text holds a line feed. A carriage return it can hold, since
    only one at the end is taken off. -/
theorem not_mem_of_mem_lines {text line : List Char} (hline : line ∈ lines text) : '\n' ∉ line := by
  obtain ⟨part, hpart, rfl⟩ := List.mem_map.mp hline
  exact fun hc => not_mem_of_mem_splitOn hpart (mem_of_mem_dropReturn hc)

/-- Lines that are joined are found again without the carriage returns at their
    ends. There has to be a line, since even the empty text has one. -/
theorem lines_joinLines {ls : List (List Char)} (hne : ls ≠ []) (hls : ∀ l ∈ ls, '\n' ∉ l) :
    lines (joinLines ls) = ls.map dropReturn := by
  rw [lines, joinLines, splitOn_eq, List.splitOn_intercalate '\n' hls hne]

/-- Without carriage returns, the lines of a text make up the text: nothing but
    the line feeds was taken out, and they are put back. -/
theorem joinLines_lines {text : List Char} (h : '\r' ∉ text) : joinLines (lines text) = text := by
  have hkept : ∀ part ∈ splitOn '\n' text, dropReturn part = part := by
    intro part hpart
    rw [dropReturn, if_neg]
    exact fun hlast => h (mem_of_mem_splitOn hpart (List.mem_of_getLast? hlast))
  rw [joinLines, lines, List.map_congr_left hkept, List.map_id', splitOn_eq, List.intercalate_splitOn]

/-- The first line of a text is what stands before its first line feed, less a
    carriage return. -/
theorem lines_append_cons {line : List Char} (hline : '\n' ∉ line) (rest : List Char) :
    lines (line ++ '\n' :: rest) = dropReturn line :: lines rest := by
  rw [lines, splitOn_eq, List.splitOn_append_cons_self_of_not_mem hline, List.map_cons, ← splitOn_eq, lines]

theorem trim_append_singleton {c : Char} (hc : isBlank c) (s : List Char) : trim (s ++ [c]) = trim s :=
  strip_append_singleton hc s

/-- Trimming does not see the carriage return that a line may end in. -/
@[simp] theorem trim_dropReturn (line : List Char) : trim (dropReturn line) = trim line := by
  rw [dropReturn]
  split
  · rename_i hlast
    have hline : line.dropLast ++ ['\r'] = line := List.dropLast_append_getLast? _ hlast
    rw [← trim_append_singleton (c := '\r') (by decide) line.dropLast, hline]
  · rfl

end LiveDiagram.Text
