import LiveDiagram.Proofs.Source.FrontMatter
import LiveDiagram.Proofs.Source.Statements
import LiveDiagram.Proofs.Text.Reading

namespace LiveDiagram

open Text

namespace FrontMatter

/-- No block is found where the lines open with none, and only there. So a
    missing block can be told without the search for one. -/
theorem ofLines?_eq_none_iff {ls : List (List Char)} :
    ofLines? ls = none ↔ ¬∃ m : FrontMatter, m.Closed ∧ m.toLines = ls := by
  constructor
  · rintro hnone ⟨m, hm, rfl⟩
    rw [hm.ofLines?_toLines] at hnone
    cases hnone
  · intro hnot
    cases hblock : ofLines? ls with
    | none => rfl
    | some m => exact absurd ⟨m, closed_of_ofLines? hblock⟩ hnot

end FrontMatter

open FrontMatter

/-- Every line behind the block is a line of the text. -/
theorem mem_of_mem_bodyLines {ls : List (List Char)} {line : List Char} (hline : line ∈ bodyLines ls) :
    line ∈ ls := by
  rw [bodyLines] at hline
  cases hblock : ofLines? ls with
  | none => simpa [hblock] using hline
  | some m =>
    rw [hblock, Option.map_some, Option.getD_some] at hline
    rw [← (closed_of_ofLines? hblock).2, toLines]
    exact List.mem_append_right _ (List.mem_cons_of_mem _ hline)

/-- Lines state the same when they are joined and split again. None of them
    holds a line feed, or it would come back as two; carriage returns at their
    ends are trimmed anyway. -/
theorem statements_lines_joinLines {ls : List (List Char)} (hls : ∀ line ∈ ls, '\n' ∉ line) :
    statements (lines (joinLines ls)) = statements ls := by
  cases ls with
  | nil => rfl
  | cons line ls => rw [lines_joinLines (List.cons_ne_nil line ls) hls, statements_map_dropReturn]

/-- What stands behind the block of a text states the same when it is joined and
    split again. -/
theorem statements_joinLines_bodyLines (text : List Char) :
    statements (lines (joinLines (bodyLines (lines text)))) = statements (bodyLines (lines text)) :=
  statements_lines_joinLines fun _ hline => not_mem_of_mem_lines (mem_of_mem_bodyLines hline)

/-- A text without its block states what stands behind the block, be there one
    or not. -/
theorem statements_withoutFrontMatter (text : List Char) :
    statements (lines (withoutFrontMatter text)) = statements (bodyLines (lines text)) := by
  rw [withoutFrontMatter]
  cases hblock : ofLines? (lines text) with
  | none => rw [bodyLines, hblock, Option.map_none, Option.getD_none]
  | some m =>
    have hbody : bodyLines (lines text) = m.body := by rw [bodyLines, hblock, Option.map_some, Option.getD_some]
    rw [← statements_joinLines_bodyLines, hbody]

/-- A block that was put in front of a text to pin its layout is removed again
    up to a blank line. The block that is found then is the one that was put in
    front, whatever lines of the text look like one. A text with a block of its
    own gets none in front, nor does one that holds the setting already. -/
theorem removeFrontMatter_pinLayout {text : List Char} (hblock : ofLines? (lines text) = none)
    (hreturn : '\r' ∉ text) (hsequence : isSequenceText text = false) (hfixed : occursIn fixedLayout text = false) :
    removeFrontMatter (pinLayout text) = '\n' :: text := by
  have hpinned : lines (pinLayout text) = (fixedBlock ([] :: lines text)).toLines := by
    rw [pinLayout, hsequence, hfixed, ← lines_fixedBlock, hblock]
    rfl
  have hlines : lines text ≠ [] := by
    rw [lines, splitOn_eq]
    exact fun hnil => List.splitOn_ne_nil _ _ (List.map_eq_nil_iff.mp hnil)
  obtain ⟨first, later, hfirst⟩ := List.exists_cons_of_ne_nil hlines
  rw [removeFrontMatter, hpinned, (closed_fixedBlock _).ofLines?_toLines]
  calc joinLines ([] ++ [] :: lines text) = '\n' :: joinLines (lines text) := by
        rw [List.nil_append, hfirst, joinLines, List.intercalate_cons_cons, joinLines]
        rfl
    _ = '\n' :: text := by rw [joinLines_lines hreturn]

/-- Whatever is done with the front matter of the text agrees with how its
    diagram is read. -/
structure FrontMatter.Agrees [YamlReader] (text : String) : Prop where
  /-- The diagram is that of the text behind the block, which is split into
      lines on its own. The block gives the settings. -/
  ofText_eq : Diagram.ofText text =
    Diagram.ofStatements (statements (lines (withoutFrontMatter text.toList))) (Config.ofLines (lines text.toList))
  /-- The kind is told from the lines behind the block, joined and split
      again. -/
  isSequenceText_eq : isSequenceText text.toList =
    isSequence (statements (lines (joinLines (bodyLines (lines text.toList)))))
  isSequenceText_iff : isSequenceText text.toList = true ↔ ∃ d, Diagram.ofText text = .sequence d
  /-- Pinning the layout changes the settings only. -/
  ofText_pinLayout :
    (Diagram.ofText (String.ofList (pinLayout text.toList))).unconfigured = (Diagram.ofText text).unconfigured
  removed_pinLayout : (¬∃ m : FrontMatter, m.Closed ∧ m.toLines = lines text.toList) → '\r' ∉ text.toList →
    isSequenceText text.toList = false → ¬fixedLayout <:+: text.toList →
    removeFrontMatter (pinLayout text.toList) = '\n' :: text.toList

/-- Whatever is done with the front matter of a text agrees with how its diagram
    is read: a text is split into lines to say what kind of diagram it states,
    to read the diagram, to pin its layout, and to remove its settings, and all
    of these find the same block. -/
theorem FrontMatter.agrees [YamlReader] (text : String) : Agrees text where
  ofText_eq := by
    rw [statements_withoutFrontMatter]
    rfl
  isSequenceText_eq := by
    rw [statements_joinLines_bodyLines]
    rfl
  isSequenceText_iff := by
    simp only [Diagram.ofText_eq_sequence_iff, exists_and_left, exists_eq, and_true]
    rfl
  ofText_pinLayout := Diagram.ofText_pinLayout text
  removed_pinLayout hblock hreturn hsequence hfixed := by
    have hoccurs : occursIn fixedLayout text.toList = false :=
      Bool.eq_false_iff.mpr fun h => hfixed (occursIn_iff.mp h)
    exact removeFrontMatter_pinLayout (ofLines?_eq_none_iff.mpr hblock) hreturn hsequence hoccurs

/-- A text that opens with a line of a block which no later line closes, and has
    blank lines at both ends. -/
def unclosedText : String :=
  "\n---\nflowchart LR\nlayout:fixed\na --> b\n"

/-- Pinning that text and removing the block again leaves one blank line in
    front of it. -/
theorem FrontMatter.agrees_unclosedText :
    removeFrontMatter (pinLayout unclosedText.toList) = '\n' :: unclosedText.toList := by
  refine (FrontMatter.agrees unclosedText).removed_pinLayout ?_ (by decide) (by decide) ?_
  · exact ofLines?_eq_none_iff.mp (by decide)
  · rw [← occursIn_iff]
    decide

end LiveDiagram
