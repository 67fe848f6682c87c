import LiveDiagram.Proofs.Source.Statements

namespace LiveDiagram

open Text

namespace FrontMatter

/-- The lines stand where they do in a block: blank ones before it, and no
    delimiter inside. -/
structure Closed (m : FrontMatter) : Prop where
  before : ∀ line ∈ m.before, isBlankLine line
  opening : isDelimiter m.opening
  settings : ∀ line ∈ m.settings, isDelimiter line = false
  closing : isDelimiter m.closing

/-- A delimiter is no blank line, so it is never taken for one of those before
    the block. -/
theorem isBlankLine_of_isDelimiter {line : List Char} (hline : isDelimiter line) :
    isBlankLine line = false := by
  rw [isDelimiter, beq_iff_eq] at hline
  rw [isBlankLine, hline]
  rfl

/-- A closed block is found. Nothing but blank lines is before its opening line,
    and the first delimiter behind that is its closing line. -/
theorem Closed.ofLines?_toLines {m : FrontMatter} (hm : m.Closed) : ofLines? m.toLines = some m := by
  have hopening : ¬ isBlankLine m.opening = true := by simp [isBlankLine_of_isDelimiter hm.opening]
  have hsettings : ∀ line ∈ m.settings, (!isDelimiter line) = true := fun line h => by
    simp [hm.settings line h]
  have hclosing : ¬ (!isDelimiter m.closing) = true := by simp [hm.closing]
  have hskipped : (m.settings ++ m.closing :: m.body).dropWhile (fun line => !isDelimiter line) =
      m.closing :: m.body := by
    rw [List.dropWhile_append_of_pos hsettings]
    exact List.dropWhile_cons_of_neg hclosing
  have htaken : (m.settings ++ m.closing :: m.body).takeWhile (fun line => !isDelimiter line) =
      m.settings := by
    rw [List.takeWhile_append_of_pos hsettings, List.takeWhile_cons, if_neg hclosing, List.append_nil]
  rw [toLines, List.append_assoc, List.cons_append, ofLines?, List.dropWhile_append_of_pos hm.before,
    List.dropWhile_cons_of_neg hopening, List.takeWhile_append_of_pos hm.before,
    List.takeWhile_cons_of_neg hopening, List.append_nil]
  simp only [hm.opening, if_true, hskipped, htaken]

/-- The block that is found is closed, and it makes up all the lines. -/
theorem closed_of_ofLines? {ls : List (List Char)} {m : FrontMatter} (hm : ofLines? ls = some m) :
    m.Closed ∧ m.toLines = ls := by
  unfold ofLines? at hm
  split at hm
  · cases hm
  · rename_i opening rest hrest
    split at hm
    · rename_i hopening
      split at hm
      · cases hm
      · rename_i closing body hbody
        obtain rfl := Option.some.inj hm
        have hclosing : isDelimiter closing := by
          have hhead := List.head?_dropWhile_not (fun line => !isDelimiter line) rest
          simpa [hbody] using hhead
        refine ⟨⟨fun line h => List.mem_takeWhile_imp h, hopening, fun line h => ?_, hclosing⟩, ?_⟩
        · simpa using List.mem_takeWhile_imp h
        · rw [toLines, List.append_assoc, List.cons_append, ← hbody, List.takeWhile_append_dropWhile,
            ← hrest, List.takeWhile_append_dropWhile]
    · cases hm

/-- No line of a block that was found in a text holds a line feed. -/
theorem not_mem_of_mem_toLines {text line : List Char} {m : FrontMatter}
    (hm : ofLines? (lines text) = some m) (hline : line ∈ m.toLines) : '\n' ∉ line :=
  not_mem_of_mem_lines ((closed_of_ofLines? hm).2 ▸ hline)

/-- Pinning the layout adds one line at most, which is always the same. -/
theorem mem_pin {line : List Char} {settings : List (List Char)} (hline : line ∈ pin settings) :
    line = fixedLayout ∨ line ∈ settings := by
  induction settings with
  | nil => exact .inl (List.mem_singleton.mp hline)
  | cons first settings ih =>
    rw [pin] at hline
    split at hline
    · exact (List.mem_cons.mp hline).imp_right (List.mem_cons_of_mem _)
    · obtain rfl | h := List.mem_cons.mp hline
      · exact .inr List.mem_cons_self
      · exact (ih h).imp_right (List.mem_cons_of_mem _)

/-- Pinning the layout does not open or close a block, since the line that pins
    it is no delimiter. -/
theorem Closed.pin {m : FrontMatter} (hm : m.Closed) : ({ m with settings := pin m.settings }).Closed where
  before := hm.before
  opening := hm.opening
  settings line hline := by
    obtain rfl | h := mem_pin hline
    · decide
    · exact hm.settings line h
  closing := hm.closing

/-- The lines of a block with the layout pinned are lines of the block, but for
    the one that pins it. -/
theorem mem_toLines_pin {m : FrontMatter} {line : List Char}
    (hline : line ∈ { m with settings := pin m.settings }.toLines) :
    line = fixedLayout ∨ line ∈ m.toLines := by
  simp only [toLines, List.mem_append, List.mem_cons] at hline ⊢
  obtain (h | h | h) | h := hline
  · exact .inr (.inl (.inl h))
  · exact .inr (.inl (.inr (.inl h)))
  · exact (mem_pin h).imp_right fun h => .inl (.inr (.inr h))
  · exact .inr (.inr h)

/-- The block that only pins the layout. -/
def fixedBlock (body : List (List Char)) : FrontMatter where
  before := []
  opening := ['-', '-', '-']
  settings := [fixedLayout]
  closing := ['-', '-', '-']
  body

theorem closed_fixedBlock (body : List (List Char)) : (fixedBlock body).Closed where
  before _ h := nomatch h
  opening := by rfl
  settings line h := by
    obtain rfl := List.mem_singleton.mp h
    rfl
  closing := by rfl

/-- The lines of a text under a block of its own, which a blank line follows. -/
theorem lines_fixedBlock (text : List Char) :
    lines ("---\n".toList ++ fixedLayout ++ "\n---\n\n".toList ++ text) =
      (fixedBlock ([] :: lines text)).toLines := by
  have htext : "---\n".toList ++ fixedLayout ++ "\n---\n\n".toList ++ text =
      ['-', '-', '-'] ++ '\n' :: (fixedLayout ++ '\n' :: (['-', '-', '-'] ++ '\n' :: ([] ++ '\n' :: text))) :=
    rfl
  rw [htext, lines_append_cons (by decide), lines_append_cons (by decide), lines_append_cons (by decide),
    lines_append_cons (by decide)]
  rfl

/-- The block that is found again when its lines are joined. -/
def rejoined (m : FrontMatter) : FrontMatter where
  before := m.before.map dropReturn
  opening := dropReturn m.opening
  settings := m.settings.map dropReturn
  closing := dropReturn m.closing
  body := m.body.map dropReturn

/-- Joining and splitting takes a carriage return off every line of a block, and
    keeps each in its place. -/
theorem toLines_rejoined (m : FrontMatter) : m.rejoined.toLines = m.toLines.map dropReturn := by
  simp [toLines, rejoined]

/-- A closed block stays closed when its lines are joined and split again:
    delimiters and blank lines are told after trimming. -/
theorem Closed.rejoined {m : FrontMatter} (hm : m.Closed) : m.rejoined.Closed where
  before line hline := by
    obtain ⟨line, h, rfl⟩ := List.mem_map.mp hline
    simpa [isBlankLine] using hm.before line h
  opening := by simpa [isDelimiter, FrontMatter.rejoined] using hm.opening
  settings line hline := by
    obtain ⟨line, h, rfl⟩ := List.mem_map.mp hline
    simpa [isDelimiter] using hm.settings line h
  closing := by simpa [isDelimiter, FrontMatter.rejoined] using hm.closing

end FrontMatter

open FrontMatter

/-- What stands behind a closed block are the lines of its body. -/
theorem bodyLines_of_closed {m : FrontMatter} (hm : m.Closed) : bodyLines m.toLines = m.body := by
  rw [bodyLines, hm.ofLines?_toLines]
  rfl

/-- The settings of the lines are those of the block that they make up, whatever
    the reader of settings makes of it. -/
theorem Config.ofLines_of_closed [YamlReader] {m : FrontMatter} (hm : m.Closed) :
    Config.ofLines m.toLines = m.config := by
  rw [Config.ofLines, hm.ofLines?_toLines]
  rfl

/-- The lines that are joined after a closed block are found behind it again,
    without the carriage returns at their ends. -/
theorem bodyLines_joinLines {m : FrontMatter} (hm : m.Closed) (hlines : ∀ line ∈ m.toLines, '\n' ∉ line) :
    bodyLines (lines (joinLines m.toLines)) = m.body.map dropReturn := by
  have hne : m.toLines ≠ [] := by simp [toLines]
  rw [lines_joinLines hne hlines, ← toLines_rejoined, bodyLines_of_closed hm.rejoined]
  rfl

/-- Carriage returns at the ends of lines change nothing about what the lines
    state. -/
theorem statements_map_dropReturn (ls : List (List Char)) :
    statements (ls.map dropReturn) = statements ls := by
  rw [statements, List.map_map, statements]
  congr 1
  exact List.map_congr_left fun line _ => trim_dropReturn line

theorem statements_nil_cons (ls : List (List Char)) : statements ([] :: ls) = statements ls := by
  rfl

/-- Pinning the layout changes nothing about what a text states: the pinned text
    has a block, the body of which states what the text did. -/
theorem statements_pinLayout (text : List Char) :
    statements (bodyLines (lines (pinLayout text))) = statements (bodyLines (lines text)) := by
  unfold pinLayout
  split
  · rfl
  · cases hblock : ofLines? (lines text) with
    | some m =>
      obtain ⟨hclosed, hlines⟩ := closed_of_ofLines? hblock
      have hfree : ∀ line ∈ { m with settings := pin m.settings }.toLines, '\n' ∉ line := by
        intro line hline
        obtain rfl | h := mem_toLines_pin hline
        · decide
        · exact not_mem_of_mem_toLines hblock h
      simp only [bodyLines_joinLines hclosed.pin hfree, statements_map_dropReturn]
      rw [← hlines, bodyLines_of_closed hclosed]
    | none =>
      have hbody : bodyLines (lines text) = lines text := by rw [bodyLines, hblock]; rfl
      simp only [lines_fixedBlock, bodyLines_of_closed (closed_fixedBlock _), hbody]
      exact statements_nil_cons _

/-- A text with the layout pinned is the text of the same diagram, up to the
    settings: whatever a reader makes of the pinned block, the statements behind
    it are the same. -/
theorem Diagram.ofText_pinLayout [YamlReader] (text : String) :
    (ofText (String.ofList (pinLayout text.toList))).unconfigured = (ofText text).unconfigured := by
  rw [ofText, ofText, unconfigured_ofStatements, unconfigured_ofStatements, String.toList_ofList,
    statements_pinLayout]

end LiveDiagram
