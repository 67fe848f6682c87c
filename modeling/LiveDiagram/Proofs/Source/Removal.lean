import LiveDiagram.Proofs.Source.Agreement
import LiveDiagram.Proofs.Source.Replaced

namespace LiveDiagram

open Text FrontMatter

/-- A block that opens behind blank lines is the same with more of them before
    it. -/
theorem FrontMatter.ofLines?_append_blank {blank : List (List Char)} (hblank : ∀ line ∈ blank, isBlankLine line)
    (ls : List (List Char)) :
    ofLines? (blank ++ ls) = (ofLines? ls).map fun m => { m with before := blank ++ m.before } := by
  rw [ofLines?, ofLines?, List.dropWhile_append_of_pos hblank, List.takeWhile_append_of_pos hblank]
  cases ls.dropWhile isBlankLine with
  | nil => rfl
  | cons opening rest =>
    dsimp only
    split
    · cases rest.dropWhile fun line => !isDelimiter line <;> rfl
    · rfl

/-- The carriage returns at the ends of lines do not tell whether a block opens,
    and the block that opens is the same up to them. -/
theorem FrontMatter.ofLines?_map_dropReturn (ls : List (List Char)) :
    ofLines? (ls.map dropReturn) = (ofLines? ls).map rejoined := by
  have hblank : isBlankLine ∘ dropReturn = isBlankLine := funext fun line => by simp [isBlankLine]
  have hdelimiter : ∀ line, isDelimiter (dropReturn line) = isDelimiter line := fun line => by simp [isDelimiter]
  have hopen : ((fun line => !isDelimiter line) ∘ dropReturn) = fun line => !isDelimiter line :=
    funext fun line => congrArg Bool.not (hdelimiter line)
  rw [ofLines?, ofLines?, List.dropWhile_map, List.takeWhile_map, hblank]
  cases ls.dropWhile isBlankLine with
  | nil => rfl
  | cons opening rest =>
    rw [List.map_cons]
    dsimp only
    rw [hdelimiter, List.dropWhile_map, List.takeWhile_map, hopen]
    split
    · cases rest.dropWhile fun line => !isDelimiter line <;> rfl
    · rfl

/-- Blank lines before a text change nothing about what it states, be there a
    block behind them or not. -/
theorem statements_bodyLines_append_blank {blank : List (List Char)} (hblank : ∀ line ∈ blank, isBlankLine line)
    (ls : List (List Char)) : statements (bodyLines (blank ++ ls)) = statements (bodyLines ls) := by
  rw [bodyLines, bodyLines, ofLines?_append_blank hblank]
  cases ofLines? ls with
  | some m => rfl
  | none =>
    have hnothing : statements blank = [] := by
      rw [statements, List.filter_eq_nil_iff]
      intro line hline
      obtain ⟨raw, hraw, rfl⟩ := List.mem_map.mp hline
      have hempty : (trim raw).isEmpty = true := hblank raw hraw
      simp [hempty]
    exact (statements_append blank ls).trans (by rw [hnothing, List.nil_append]; rfl)

/-- The carriage returns at the ends of lines change nothing about what a text
    states. -/
theorem statements_bodyLines_map_dropReturn (ls : List (List Char)) :
    statements (bodyLines (ls.map dropReturn)) = statements (bodyLines ls) := by
  rw [bodyLines, bodyLines, ofLines?_map_dropReturn]
  cases ofLines? ls with
  | some m => exact statements_map_dropReturn m.body
  | none => exact statements_map_dropReturn ls

/-- What is left of a text without its block is the lines before and behind the
    block, each of which may lose one more carriage return. If no line is left,
    there is one empty line. -/
theorem lines_removeFrontMatter {text : List Char} {m : FrontMatter} (hblock : ofLines? (lines text) = some m) :
    lines (removeFrontMatter text) = (m.before ++ m.body).map dropReturn ∨
      m.before ++ m.body = [] ∧ lines (removeFrontMatter text) = [[]] := by
  have hremoved : removeFrontMatter text = joinLines (m.before ++ m.body) := by
    rw [removeFrontMatter, hblock]
  have hfree : ∀ line ∈ m.before ++ m.body, '\n' ∉ line := by
    intro line hline
    refine not_mem_of_mem_toLines hblock ?_
    rcases List.mem_append.mp hline with hmem | hmem
    · exact List.mem_append_left _ (List.mem_append_left _ hmem)
    · exact List.mem_append_right _ (List.mem_cons_of_mem _ hmem)
  rw [hremoved]
  cases hkept : m.before ++ m.body with
  | nil => exact .inr ⟨rfl, rfl⟩
  | cons line rest =>
    rw [hkept] at hfree
    exact .inl (lines_joinLines (List.cons_ne_nil line rest) hfree)

/-- What stands behind the block that was found are the lines of its body. -/
theorem bodyLines_of_ofLines? {ls : List (List Char)} {m : FrontMatter} (hblock : ofLines? ls = some m) :
    bodyLines ls = m.body := by
  obtain ⟨hm, hlines⟩ := closed_of_ofLines? hblock
  rw [← hlines, bodyLines_of_closed hm]

/-- Without its block, a text states what stands behind the block that the lines
    behind its block open with. The text is searched for a block once more, and
    finds that second one if there is one; otherwise it states what it stated
    before. -/
theorem statements_removeFrontMatter (text : List Char) :
    statements (bodyLines (lines (removeFrontMatter text))) = statements (bodyLines (bodyLines (lines text))) := by
  cases hblock : ofLines? (lines text) with
  | none => rw [removeFrontMatter, hblock, bodyLines_eq_self hblock, bodyLines_eq_self hblock]
  | some m =>
    have hbefore := (closed_of_ofLines? hblock).1.before
    rw [bodyLines_of_ofLines? hblock, ← statements_bodyLines_append_blank hbefore m.body]
    rcases lines_removeFrontMatter hblock with hlines | ⟨hnothing, hlines⟩
    · rw [hlines, statements_bodyLines_map_dropReturn]
    · rw [hlines, hnothing]
      rfl

/-- Its settings are then those of that second block, the lines of which may
    have lost one more carriage return. There are none if the lines behind its
    block open with no other. -/
theorem config_removeFrontMatter [YamlReader] (text : List Char) :
    Config.ofLines (lines (removeFrontMatter text)) =
      ((ofLines? (bodyLines (lines text))).map fun m => m.rejoined.config).getD ∅ := by
  cases hblock : ofLines? (lines text) with
  | none =>
    rw [removeFrontMatter, hblock, bodyLines_eq_self hblock, hblock, Config.ofLines_eq_empty hblock]
    rfl
  | some m =>
    have hbefore := (closed_of_ofLines? hblock).1.before
    rw [bodyLines_of_ofLines? hblock]
    rcases lines_removeFrontMatter hblock with hlines | ⟨hnothing, hlines⟩
    · rw [hlines, Config.ofLines, ofLines?_map_dropReturn, ofLines?_append_blank hbefore]
      cases ofLines? m.body <;> rfl
    · rw [hlines, (List.append_eq_nil_iff.mp hnothing).2]
      rfl

/-- Without its block, a text is that of the diagram that stands behind the
    second block, under the settings of that block. Where there is no second
    one, only the settings of the diagram are lost, for whatever reader reads
    them. -/
theorem Diagram.ofText_removeFrontMatter [YamlReader] (text : String) :
    ofText (String.ofList (removeFrontMatter text.toList)) =
      ofStatements (statements (bodyLines (bodyLines (lines text.toList))))
        (((ofLines? (bodyLines (lines text.toList))).map fun m => m.rejoined.config).getD ∅) := by
  rw [ofText, String.toList_ofList, statements_removeFrontMatter, config_removeFrontMatter]

end LiveDiagram
