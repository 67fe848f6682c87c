import LiveDiagram.Proofs.Text.Lines
import LiveDiagram.Proofs.Text.Reading
import LiveDiagram.Source.Diagram

namespace LiveDiagram

open Text

/-- The lines of a text that state something. -/
def statementLines (text : String) : List (List Char) :=
  statements (bodyLines (lines text.toList))

namespace Diagram

section Statements

variable {ls : List (List Char)} {config : Config}

/-- Statements make a sequence diagram just if the first of them says so, and
    then the others state it. -/
theorem ofStatements_eq_sequence_iff {d : Sequence} : ofStatements ls config = .sequence d ↔
    isSequence ls = true ∧ d = Sequence.ofLines ls.tail config := by
  rw [ofStatements]
  split
  · rename_i hsequence
    simp only [sequence.injEq, hsequence, true_and, eq_comm]
  · rename_i hflowchart
    simp [hflowchart]

/-- Statements make a flowchart just if the first of them does not speak of a
    sequence diagram, and then all of them state it. -/
theorem ofStatements_eq_flowchart_iff {d : Flowchart} : ofStatements ls config = .flowchart d ↔
    isSequence ls = false ∧ d = Flowchart.ofLines ls config := by
  rw [ofStatements]
  split
  · rename_i hsequence
    simp [hsequence]
  · rename_i hflowchart
    simp only [flowchart.injEq, Bool.eq_false_iff.mpr hflowchart, true_and, eq_comm]

end Statements

/-- A text is that of a sequence diagram just if its first statement says so.
    The settings in front of it have no say in this. -/
theorem ofText_eq_sequence_iff [YamlReader] {text : String} {d : Sequence} : ofText text = .sequence d ↔
    isSequence (statementLines text) = true ∧
      d = Sequence.ofLines (statementLines text).tail (Config.ofLines (lines text.toList)) :=
  ofStatements_eq_sequence_iff

/-- A text is that of a flowchart just if its first statement does not speak of
    a sequence diagram. -/
theorem ofText_eq_flowchart_iff [YamlReader] {text : String} {d : Flowchart} : ofText text = .flowchart d ↔
    isSequence (statementLines text) = false ∧
      d = Flowchart.ofLines (statementLines text) (Config.ofLines (lines text.toList)) :=
  ofStatements_eq_flowchart_iff

/-- The diagram without its settings. -/
def unconfigured : Diagram → Diagram
  | .flowchart d => .flowchart { d with config := ∅ }
  | .sequence d => .sequence { d with config := ∅ }

/-- Settings are kept as they are and change nothing else: a diagram without its
    settings is what its statements state under none. -/
theorem unconfigured_ofStatements (ls : List (List Char)) (config : Config) :
    (ofStatements ls config).unconfigured = ofStatements ls ∅ := by
  have hstate (ss : List Sequence.Statement) (d : Sequence) :
      { ss.foldl Sequence.state d with config := ∅ } = ss.foldl Sequence.state { d with config := ∅ } := by
    induction ss generalizing d with
    | nil => rfl
    | cons s ss ih => cases s <;> exact ih _
  rw [ofStatements, ofStatements]
  split
  · exact congrArg sequence (hstate _ _)
  · rfl

/-- What is a flowchart up to its settings is that flowchart under settings of
    its own. -/
theorem exists_eq_flowchart {x : Diagram} {d : Flowchart} (h : x.unconfigured = (flowchart d).unconfigured) :
    ∃ config, x = .flowchart { d with config } := by
  cases x with
  | sequence e => cases h
  | flowchart e =>
    cases d
    cases e
    cases h
    exact ⟨_, rfl⟩

/-- The diagram is that of a text, under whatever settings: any reader may have
    found any settings in front of the text, and what the text states does not
    depend on them. -/
def OfText (d : Diagram) : Prop :=
  ∃ (text : String) (config : Config), d = ofStatements (statementLines text) config

/-- The diagram of a text is that of a text under settings, whichever reader has
    found them. -/
theorem ofText_ofText [YamlReader] (text : String) : (ofText text).OfText :=
  ⟨text, _, rfl⟩

end Diagram

/-- A line that states something and of which trimming takes nothing away. It is
    no comment, and no block of settings opens with it. -/
structure IsStatement (line : List Char) : Prop where
  noBreak : '\n' ∉ line
  head : line.head?.any isWordChar
  last : ∀ d ∈ line.getLast?, isBlank d = false

namespace IsStatement

variable {line : List Char}

theorem exists_cons (h : IsStatement line) : ∃ c rest, line = c :: rest ∧ isWordChar c := by
  have hhead := h.head
  rw [Option.any_eq_true] at hhead
  obtain ⟨c, hc, hword⟩ := hhead
  obtain ⟨rest, rfl⟩ := List.head?_eq_some_iff.mp hc
  exact ⟨c, rest, rfl, hword⟩

theorem trim_eq_self (h : IsStatement line) : trim line = line := by
  refine Text.trim_eq_self (fun d hd => ?_) h.last
  obtain ⟨c, rest, rfl, hc⟩ := h.exists_cons
  obtain rfl := Option.some.inj hd
  exact isBlank_eq_false_of_isWordChar hc

theorem dropReturn_eq_self (h : IsStatement line) : dropReturn line = line := by
  rw [dropReturn, if_neg]
  intro hlast
  exact absurd (h.last _ hlast) (by decide)

theorem isBlankLine_eq_false (h : IsStatement line) : FrontMatter.isBlankLine line = false := by
  rw [FrontMatter.isBlankLine, h.trim_eq_self]
  obtain ⟨c, rest, rfl, -⟩ := h.exists_cons
  rfl

/-- What starts with a word character does not start with another one, such as a
    hyphen or a `#`. -/
theorem head?_ne (h : IsStatement line) {d : Char} (hd : isWordChar d = false) : line.head? ≠ some d := by
  obtain ⟨c, rest, rfl, hc⟩ := h.exists_cons
  rintro hhead
  obtain rfl := Option.some.inj hhead
  exact Bool.false_ne_true (hd.symm.trans hc)

theorem isDelimiter_eq_false (h : IsStatement line) : FrontMatter.isDelimiter line = false := by
  rw [FrontMatter.isDelimiter, h.trim_eq_self, beq_eq_false_iff_ne]
  rintro rfl
  exact h.head?_ne (d := '-') (by decide) rfl

theorem after?_percent (h : IsStatement line) : after? ['%', '%'] line = none := by
  cases hafter : after? ['%', '%'] line with
  | none => rfl
  | some rest => exact absurd (append_of_after? hafter ▸ rfl) (h.head?_ne (d := '%') (by decide))

end IsStatement

section Written

variable {α β γ : Type} {l : List α} {line : α → β} {read? : β → Option γ}

/-- Where each line states what it was written for, that is what the lines
    state, each in its turn. -/
theorem filterMap_map_eq_map {stated : α → γ} (h : ∀ a ∈ l, read? (line a) = some (stated a)) :
    (l.map line).filterMap read? = l.map stated := by
  rw [List.filterMap_map, ← List.filterMap_eq_map]
  exact List.filterMap_congr h

theorem filterMap_map_eq_nil (h : ∀ a ∈ l, read? (line a) = none) : (l.map line).filterMap read? = [] := by
  rw [List.filterMap_map, List.filterMap_eq_nil_iff]
  exact h

/-- Where nothing of a kind is stated by any line, nothing of it is stated. -/
theorem flatMap_nil_fun (l : List α) : l.flatMap (fun _ => ([] : List β)) = [] :=
  List.flatMap_eq_nil_iff.mpr fun _ _ => rfl

end Written

variable {ls : List (List Char)}

theorem ofLines?_of_isStatement (hls : ∀ line ∈ ls, IsStatement line) : FrontMatter.ofLines? ls = none := by
  rw [FrontMatter.ofLines?]
  cases ls with
  | nil => rfl
  | cons line ls =>
    have hline := hls line List.mem_cons_self
    rw [List.dropWhile_cons_of_neg (by simp [hline.isBlankLine_eq_false])]
    simp [hline.isDelimiter_eq_false]

theorem statements_of_isStatement (hls : ∀ line ∈ ls, IsStatement line) : statements ls = ls := by
  have htrim : ls.map trim = ls := by
    rw [List.map_congr_left fun line hline => (hls line hline).trim_eq_self]
    exact List.map_id' ls
  rw [statements, htrim, List.filter_eq_self]
  intro line hline
  have hstatement := hls line hline
  obtain ⟨c, rest, rfl, -⟩ := hstatement.exists_cons
  have hcomment : ((c :: rest).head? == some '#') = false := by
    rw [beq_eq_false_iff_ne]
    exact hstatement.head?_ne (by decide)
  rw [hcomment, hstatement.after?_percent]
  rfl

/-- A text that is joined from statements states them, and has no settings,
    whoever reads it. -/
theorem Diagram.ofText_joinLines [YamlReader] (hne : ls ≠ []) (hls : ∀ line ∈ ls, IsStatement line) :
    ofText (String.ofList (joinLines ls)) = ofStatements ls ∅ := by
  have hreturn : ls.map dropReturn = ls := by
    rw [List.map_congr_left fun line hline => (hls line hline).dropReturn_eq_self]
    exact List.map_id' ls
  have hlines : lines (joinLines ls) = ls := by
    rw [lines_joinLines hne fun line hline => (hls line hline).noBreak, hreturn]
  rw [ofText, String.toList_ofList, hlines, bodyLines, Config.ofLines, ofLines?_of_isStatement hls,
    Option.map_none, Option.map_none, Option.getD_none, Option.getD_none, statements_of_isStatement hls]

end LiveDiagram
